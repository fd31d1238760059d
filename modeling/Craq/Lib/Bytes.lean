import Craq.Lib.Map

/-! # Byte strings and stores of byte strings

Numbers and text as bytes, and an ordered store whose keys are byte strings and may be walked or
deleted by what they begin with.
-/

namespace Craq.Lib

abbrev Bytes := List UInt8

/-! ## Numbers and text -/

def encodeUint64 (value : UInt64) : Bytes :=
  [7, 6, 5, 4, 3, 2, 1, 0].map fun place => UInt8.ofNat (value.toNat / 256 ^ place)

def decodeUint64? (bytes : Bytes) : Option UInt64 :=
  if bytes.length = 8 then
    some (UInt64.ofNat (bytes.foldl (fun value byte => value * 256 + byte.toNat) 0))
  else none

@[simp]
theorem length_encodeUint64 (value : UInt64) : (encodeUint64 value).length = 8 := rfl

@[simp]
theorem decodeUint64?_encodeUint64 (value : UInt64) :
    decodeUint64? (encodeUint64 value) = some value := by
  have bound := value.toNat_lt
  have same : (encodeUint64 value).foldl (fun value byte => value * 256 + byte.toNat) 0 =
      value.toNat := by
    simp only [encodeUint64, List.map_cons, List.map_nil, List.foldl_cons, List.foldl_nil,
      UInt8.toNat_ofNat']
    omega
  rw [decodeUint64?, if_pos (length_encodeUint64 value), same, UInt64.ofNat_toNat]

theorem encodeUint64_injective : Function.Injective encodeUint64 := by
  intro first second heq
  have same := congrArg decodeUint64? heq
  simpa using same

def textBytes (text : String) : Bytes :=
  text.toUTF8.data.toList

def bytesText? (bytes : Bytes) : Option String :=
  String.fromUTF8? ⟨⟨bytes⟩⟩

@[simp]
theorem bytesText?_textBytes (text : String) : bytesText? (textBytes text) = some text := by
  have valid : text.toByteArray.IsValidUTF8 := text.isValidUTF8
  simp only [bytesText?, textBytes, String.fromUTF8?]
  exact dif_pos valid

theorem textBytes_of_bytesText? {bytes : Bytes} {text : String} (h : bytesText? bytes = some text) :
    textBytes text = bytes := by
  rw [bytesText?, String.fromUTF8?] at h
  split at h
  · cases h
    rfl
  · cases h

theorem textBytes_injective : Function.Injective textBytes := by
  intro first second heq
  have same := congrArg bytesText? heq
  simpa using same

/-! ## Stores -/

abbrev KeyValue := Std.ExtTreeMap Bytes Bytes

namespace KeyValue

variable (store : KeyValue)

/-- Every entry whose key begins with the stem, under the rest of its key. -/
def scan (stem : Bytes) : List (Bytes × Bytes) :=
  store.toList.filterMap fun entry =>
    if stem.isPrefixOf entry.1 then some (entry.1.drop stem.length, entry.2) else none

/-- The store without the entries whose keys begin with the stem. -/
def deleteStem (stem : Bytes) : KeyValue :=
  store.filter fun key _ => !stem.isPrefixOf key

variable {store}

theorem mem_scan {stem rest value : Bytes} :
    (rest, value) ∈ store.scan stem ↔ store[stem ++ rest]? = some value := by
  simp only [scan, List.mem_filterMap, Option.ite_none_right_eq_some, Option.some.injEq,
    Prod.mk.injEq, Prod.exists, Std.ExtTreeMap.mem_toList_iff_getElem?_eq_some]
  constructor
  · rintro ⟨key, held, hheld, hstem, hrest, rfl⟩
    obtain ⟨tail, rfl⟩ := List.isPrefixOf_iff_prefix.mp hstem
    rw [List.drop_left] at hrest
    rw [← hrest]
    exact hheld
  · intro h
    refine ⟨stem ++ rest, value, h, ?_, ?_, rfl⟩
    · exact List.isPrefixOf_iff_prefix.mpr (List.prefix_append stem rest)
    · exact List.drop_left

theorem scan_nodup (stem : Bytes) : ((store.scan stem).map (·.1)).Nodup := by
  have keys : (store.scan stem).map (·.1) = store.keys.filterMap fun key =>
      if stem.isPrefixOf key then some (key.drop stem.length) else none := by
    rw [scan, ← Std.ExtTreeMap.map_fst_toList_eq_keys, List.map_filterMap, List.filterMap_map]
    congr 1
    funext entry
    simp only [Function.comp]
    split <;> rfl
  rw [keys]
  refine List.Nodup.filterMap ?_ Std.ExtTreeMap.nodup_keys
  intro first second rest hfirst hsecond
  simp only [Option.mem_def, Option.ite_none_right_eq_some, Option.some.injEq] at hfirst hsecond
  obtain ⟨left, rfl⟩ := List.isPrefixOf_iff_prefix.mp hfirst.1
  obtain ⟨right, rfl⟩ := List.isPrefixOf_iff_prefix.mp hsecond.1
  have hleft : left = rest := by simpa using hfirst.2
  have hright : right = rest := by simpa using hsecond.2
  rw [hleft, hright]

/-- What is read off the keys of a walk stays distinct when the keys can be written again from it. -/
theorem scan_map_nodup {A : Type} {stem : Bytes} (read : Bytes → A) (write : A → Bytes)
    (h : ∀ entry ∈ store.scan stem, write (read entry.1) = entry.1) :
    ((store.scan stem).map fun entry => read entry.1).Nodup := by
  have same : ((store.scan stem).map fun entry => read entry.1) =
      ((store.scan stem).map (·.1)).map read := by
    rw [List.map_map]
    rfl
  rw [same]
  refine List.Nodup.map_on ?_ (scan_nodup stem)
  intro first hfirst second hsecond heq
  obtain ⟨left, hleft, rfl⟩ := List.mem_map.mp hfirst
  obtain ⟨right, hright, rfl⟩ := List.mem_map.mp hsecond
  rw [← h left hleft, ← h right hright, heq]

theorem deleteStem_getElem? (stem key : Bytes) :
    (store.deleteStem stem)[key]? = if stem <+: key then none else store[key]? := by
  rw [deleteStem, getElem?_filter_key store fun key => !stem.isPrefixOf key]
  by_cases hstem : stem <+: key
  · have : stem.isPrefixOf key = true := List.isPrefixOf_iff_prefix.mpr hstem
    simp [hstem, this]
  · have : stem.isPrefixOf key = false := by
      rw [Bool.eq_false_iff]
      exact fun h => hstem (List.isPrefixOf_iff_prefix.mp h)
    simp [hstem, this]

end KeyValue

end Craq.Lib
