import Mathlib

/-! # Lookups in maps

Lookups after an update, by equality of the keys, and in a map from which entries have been dropped
by value only or by key only.
-/

namespace Craq.Lib

universe u v

variable {K : Type u} {V : Type v} {cmp : K → K → Ordering} [Std.TransCmp cmp]

theorem getElem?_filter_value (map : Std.ExtTreeMap K V cmp) (keep : V → Bool) (key : K) :
    (map.filter fun _ value => keep value)[key]? = map[key]?.filter keep := by
  rw [Std.ExtTreeMap.getElem?_filter, Option.pfilter_eq_filter]

theorem getElem?_filter_value_eq_some {map : Std.ExtTreeMap K V cmp} {keep : V → Bool} {key : K}
    {value : V} :
    (map.filter fun _ value => keep value)[key]? = some value ↔
      map[key]? = some value ∧ keep value = true := by
  rw [getElem?_filter_value, Option.filter_eq_some_iff]

theorem insertIfNew_of_mem [Std.LawfulEqCmp cmp] {map : Std.ExtTreeMap K V cmp} {key : K}
    (h : key ∈ map) (value : V) : map.insertIfNew key value = map := by
  apply Std.ExtTreeMap.ext_getElem?
  intro other
  rw [Std.ExtTreeMap.getElem?_insertIfNew, if_neg (fun hNew => hNew.2 h)]

theorem getElem?_filter_key [Std.LawfulEqCmp cmp] (map : Std.ExtTreeMap K V cmp) (keep : K → Bool)
    (key : K) : (map.filter fun key _ => keep key)[key]? = if keep key then map[key]? else none := by
  simp only [Std.ExtTreeMap.getElem?_filter, Std.ExtTreeMap.getKey_eq, Option.pfilter_eq_filter]
  cases keep key <;> cases map[key]? <;> rfl

section Entries

variable [Std.LawfulEqCmp cmp] {entries : List (K × V)}

omit [Std.TransCmp cmp] in
theorem pairwise_of_nodup_keys (nodup : (entries.map Prod.fst).Nodup) :
    entries.Pairwise fun first second => ¬cmp first.1 second.1 = .eq := by
  rw [List.Nodup, List.pairwise_map] at nodup
  exact nodup.imp fun hne heq => hne (Std.LawfulEqCmp.compare_eq_iff_eq.mp heq)

theorem ofList_eq [DecidableEq K] {map : Std.ExtTreeMap K V cmp}
    (nodup : (entries.map Prod.fst).Nodup)
    (h : ∀ key value, (key, value) ∈ entries ↔ map[key]? = some value) :
    Std.ExtTreeMap.ofList entries cmp = map := by
  apply Std.ExtTreeMap.ext_getElem?
  intro key
  cases hvalue : map[key]? with
  | some value =>
    exact Std.ExtTreeMap.getElem?_ofList_of_mem Std.ReflCmp.compare_self
      (pairwise_of_nodup_keys nodup) ((h key value).mpr hvalue)
  | none =>
    apply Std.ExtTreeMap.getElem?_ofList_of_contains_eq_false
    rw [← Bool.not_eq_true, List.contains_iff_mem, List.mem_map]
    rintro ⟨entry, hentry, rfl⟩
    have := (h entry.1 entry.2).mp hentry
    rw [hvalue] at this
    cases this

end Entries

section LawfulEq

variable [Std.LawfulEqCmp cmp] [DecidableEq K] (map : Std.ExtTreeMap K V cmp) (key other : K)

theorem getElem?_insert_ite (value : V) :
    (map.insert key value)[other]? = if key = other then some value else map[other]? := by
  simp only [Std.ExtTreeMap.getElem?_insert, Std.LawfulEqCmp.compare_eq_iff_eq]

theorem getElem?_erase_ite :
    (map.erase key)[other]? = if key = other then none else map[other]? := by
  simp only [Std.ExtTreeMap.getElem?_erase, Std.LawfulEqCmp.compare_eq_iff_eq]

theorem getElem?_modify_ite (f : V → V) :
    (map.modify key f)[other]? = if key = other then map[key]?.map f else map[other]? := by
  simp only [Std.ExtTreeMap.getElem?_modify, Std.LawfulEqCmp.compare_eq_iff_eq]

theorem getD_insert_ite (value fallback : V) :
    (map.insert key value).getD other fallback =
      if key = other then value else map.getD other fallback := by
  simp only [Std.ExtTreeMap.getD_insert, Std.LawfulEqCmp.compare_eq_iff_eq]

theorem getD_erase_ite (fallback : V) :
    (map.erase key).getD other fallback =
      if key = other then fallback else map.getD other fallback := by
  simp only [Std.ExtTreeMap.getD_erase, Std.LawfulEqCmp.compare_eq_iff_eq]

end LawfulEq

end Craq.Lib
