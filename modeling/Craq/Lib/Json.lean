import Craq.Lib.Bytes
import Craq.Lib.Text

/-! # JSON texts

Strings, integers and objects as `encoding/json` writes them: without blanks, and with the characters
that mean something in HTML escaped.  What is written is read back.
-/

namespace Craq.Lib

/-! ## Strings -/

def numberEscape (c : Char) : List Char :=
  ['u', Nat.digitChar (c.toNat / 4096), Nat.digitChar (c.toNat / 256 % 16),
    Nat.digitChar (c.toNat / 16 % 16), Nat.digitChar (c.toNat % 16)]

/-- The letter behind the backslash for the characters that have one. -/
def escapeLetters : List (Char × Char) :=
  [('"', '"'), ('\\', '\\'), ('\x08', 'b'), ('\x0c', 'f'), ('\n', 'n'), ('\r', 'r'), ('\t', 't')]

def jsonChar (c : Char) : List Char :=
  match escapeLetters.lookup c with
  | some letter => ['\\', letter]
  | none =>
    if c.toNat < 32 ∨ c ∈ ['<', '>', '&', '\u2028', '\u2029'] then '\\' :: numberEscape c
    else [c]

def jsonString (text : List Char) : List Char :=
  '"' :: (text.flatMap jsonChar ++ ['"'])

def hexValue (c : Char) : Option Nat :=
  (List.range 16).find? (Nat.digitChar · = c)

def readEscape : List Char → Option (Char × List Char)
  | [] => none
  | letter :: text =>
    match escapeLetters.find? (·.2 = letter) with
    | some pair => some (pair.1, text)
    | none => do
      if letter ≠ 'u' ∨ text.length < 4 then none
      else
        let digits ← (text.take 4).mapM hexValue
        return (Char.ofNat (digits.foldl (fun value digit => value * 16 + digit) 0), text.drop 4)

def readChar : List Char → Option (Char × List Char)
  | [] => none
  | c :: text => if c = '\\' then readEscape text else some (c, text)

def readChars : Nat → List Char → Option (List Char × List Char)
  | 0, _ => none
  | fuel + 1, text =>
    if text.head? = some '"' then some ([], text.tail)
    else do
      let (c, text) ← readChar text
      let (chars, text) ← readChars fuel text
      return (c :: chars, text)

def readString : Reader (List Char) := do
  expect '"'
  let text ← get
  StateT.mk (readChars text.length)

theorem hexValue_digitChar {digit : Nat} (h : digit < 16) :
    hexValue (Nat.digitChar digit) = some digit := by
  interval_cases digit <;> decide

theorem readEscape_numberEscape {c : Char} (h : c.toNat < 65536) (text : List Char) :
    readEscape (numberEscape c ++ text) = some (c, text) := by
  have hNumber : ((c.toNat / 4096 * 16 + c.toNat / 256 % 16) * 16 + c.toNat / 16 % 16) * 16 +
      c.toNat % 16 = c.toNat := by omega
  have hFind : escapeLetters.find? (·.2 = 'u') = none := by decide
  have hFirst := hexValue_digitChar (Nat.div_lt_of_lt_mul (show c.toNat < 4096 * 16 from h))
  have hMore : ∀ value, hexValue (Nat.digitChar (value % 16)) = some (value % 16) :=
    fun value => hexValue_digitChar (Nat.mod_lt value (by decide))
  simp only [numberEscape, List.cons_append, List.nil_append, readEscape, hFind]
  simp [hFirst, hMore, hNumber, Char.ofNat_toNat]

theorem readChar_jsonChar (c : Char) (text : List Char) :
    readChar (jsonChar c ++ text) = some (c, text) := by
  rw [jsonChar]
  split
  · rename_i letter hLetter
    obtain ⟨before, after, hSplit, -⟩ := List.lookup_eq_some_iff.mp hLetter
    have hMem : (c, letter) ∈ escapeLetters := by
      rw [hSplit]
      exact List.mem_append_right _ List.mem_cons_self
    have hAll : ∀ pair ∈ escapeLetters, escapeLetters.find? (·.2 = pair.2) = some pair := by
      decide
    have hFind : escapeLetters.find? (·.2 = letter) = some (c, letter) := hAll _ hMem
    simp only [List.cons_append, List.nil_append, readChar, if_true, readEscape, hFind]
  · rename_i hNone
    split
    · rename_i hEscaped
      have hSmall : c.toNat < 65536 := by
        rcases hEscaped with hLow | hMem
        · omega
        · simp only [List.mem_cons, List.not_mem_nil, or_false] at hMem
          rcases hMem with rfl | rfl | rfl | rfl | rfl <;> decide
      simp only [List.cons_append, readChar, if_true, readEscape_numberEscape hSmall]
    · have hSlash : ¬c = '\\' := by
        rintro rfl
        exact absurd hNone (by decide)
      simp only [List.cons_append, List.nil_append, readChar, if_neg hSlash]

/-- Only the quote itself would end the string, and it is escaped. -/
theorem head?_jsonChar (c : Char) (text : List Char) : (jsonChar c ++ text).head? ≠ some '"' := by
  rw [jsonChar]
  split
  · simp
  · rename_i hNone
    split
    · simp
    · simp only [List.cons_append, List.head?_cons, ne_eq, Option.some.injEq]
      rintro rfl
      exact absurd hNone (by decide)

theorem readChars_jsonString (text rest : List Char) {fuel : Nat} (h : text.length < fuel) :
    readChars fuel (text.flatMap jsonChar ++ '"' :: rest) = some (text, rest) := by
  induction text generalizing fuel with
  | nil =>
    cases fuel with
    | zero => cases h
    | succ fuel => rfl
  | cons c text ih =>
    cases fuel with
    | zero => cases h
    | succ fuel =>
      rw [List.flatMap_cons, List.append_assoc, readChars, if_neg (head?_jsonChar c _),
        readChar_jsonChar]
      simp only [Option.bind_eq_bind, Option.bind_some, ih (Nat.lt_of_succ_lt_succ h)]
      rfl

theorem length_le_flatMap_jsonChar (text : List Char) :
    text.length ≤ (text.flatMap jsonChar).length := by
  induction text with
  | nil => exact le_rfl
  | cons c text ih =>
    have hOne : 1 ≤ (jsonChar c).length := by
      rw [jsonChar]
      split
      · simp
      · split <;> simp
    rw [List.flatMap_cons, List.length_append, List.length_cons]
    omega

theorem takes_readString (text : List Char) : Takes readString (jsonString text) text := by
  intro rest
  have hQuote := takes_expect '"' (text.flatMap jsonChar ++ '"' :: rest)
  have hFuel : text.length < (text.flatMap jsonChar ++ '"' :: rest).length := by
    have := length_le_flatMap_jsonChar text
    rw [List.length_append, List.length_cons]
    omega
  rw [List.singleton_append] at hQuote
  rw [jsonString, List.cons_append, List.append_assoc, List.singleton_append, readString,
    StateT.run_bind, hQuote]
  exact readChars_jsonString text rest hFuel

/-! ## Numbers -/

def jsonNumber (value : Int) : List Char :=
  if 0 ≤ value then Nat.toDigits 10 value.toNat else ['-'] ++ Nat.toDigits 10 (-value).toNat

def readNumber : Reader Int :=
  ifNext '-' (do expect '-'; return -(← readDecimal : Nat)) (do return (← readDecimal : Nat))

theorem head?_toDigits {c : Char} (hc : c.isDigit = false) (value : Nat) (rest : List Char) :
    (Nat.toDigits 10 value ++ rest).head? ≠ some c := by
  intro hHead
  cases hText : Nat.toDigits 10 value with
  | nil => exact Nat.toDigits_ne_nil hText
  | cons digit more =>
    have hDigit : digit.isDigit = true := by
      refine Nat.isDigit_of_mem_toDigits (n := value) (by decide) le_rfl ?_
      rw [hText]
      exact List.mem_cons_self
    rw [hText] at hHead
    cases hHead
    rw [hc] at hDigit
    cases hDigit

theorem head?_jsonNumber {c : Char} (hc : c.isDigit = false) (hSign : c ≠ '-') (value : Int)
    (rest : List Char) : (jsonNumber value ++ rest).head? ≠ some c := by
  rw [jsonNumber]
  split
  · exact head?_toDigits hc _ _
  · intro hHead
    cases hHead
    exact hSign rfl

theorem reads_readNumber (value : Int) : Reads readNumber (jsonNumber value) value := by
  intro rest hRest
  rw [jsonNumber]
  split
  · rename_i hValue
    rw [readNumber, run_ifNext_other (head?_toDigits (by decide) _ _)]
    have hRead := (reads_readDecimal value.toNat).map (fun (value : Nat) => (value : Int)) rest hRest
    rwa [Int.toNat_of_nonneg hValue] at hRead
  · rename_i hValue
    rw [readNumber, run_ifNext_found rfl, List.append_assoc, StateT.run_bind, takes_expect]
    have hRead := (reads_readDecimal (-value).toNat).map (fun (value : Nat) => -(value : Int))
      rest hRest
    rwa [Int.toNat_of_nonneg (by omega), neg_neg] at hRead

/-! ## Values -/

mutual

inductive Json where
  | string (text : List Char)
  | number (value : Int)
  | object (fields : JsonFields)

inductive JsonFields where
  | nil
  | cons (name : List Char) (value : Json) (fields : JsonFields)

end

mutual

def Json.text : Json → List Char
  | .string text => jsonString text
  | .number value => jsonNumber value
  | .object fields => ['{'] ++ fields.text true

def JsonFields.text (first : Bool) : JsonFields → List Char
  | .nil => ['}']
  | .cons name value fields =>
    (if first then [] else [',']) ++
      (jsonString name ++ ([':'] ++ (value.text ++ fields.text false)))

end

def readComma (first : Bool) : Reader Unit :=
  if first then pure () else expect ','

mutual

def readJson : Nat → Reader Json
  | 0 => failure
  | fuel + 1 =>
    ifNext '"' (Json.string <$> readString) <|
    ifNext '{' (do expect '{'; Json.object <$> readFields fuel true) <|
    Json.number <$> readNumber

def readFields : Nat → Bool → Reader JsonFields
  | 0, _ => failure
  | fuel + 1, first =>
    ifNext '}' (do expect '}'; return .nil) do
      readComma first
      let name ← readString
      expect ':'
      let value ← readJson fuel
      JsonFields.cons name value <$> readFields fuel false

end

mutual

/-- The values and fields a reader has to go through. -/
def Json.size : Json → Nat
  | .string _ => 1
  | .number _ => 1
  | .object fields => fields.size + 1

def JsonFields.size : JsonFields → Nat
  | .nil => 1
  | .cons _ value fields => value.size + fields.size + 1

end

theorem takes_readComma (first : Bool) :
    Takes (readComma first) (if first then [] else [',']) () := by
  cases first with
  | false => exact takes_expect ','
  | true => exact Takes.pure ()

theorem JsonFields.ends_text (fields : JsonFields) (rest : List Char) :
    Ends (fields.text false ++ rest) := by
  cases fields with
  | nil | cons name value fields => exact Ends.cons (by decide) _

theorem JsonFields.head?_cons (first : Bool) (name : List Char) (value : Json)
    (fields : JsonFields) (rest : List Char) :
    ((JsonFields.cons name value fields).text first ++ rest).head? ≠ some '}' := by
  cases first <;> exact fun hHead => absurd (Option.some.inj hHead) (by decide)

mutual

theorem reads_readJson (json : Json) {fuel : Nat} (h : json.size ≤ fuel) :
    Reads (readJson fuel) json.text json := by
  intro rest hRest
  cases fuel with
  | zero => cases json <;> cases h
  | succ fuel =>
    rw [readJson]
    cases json with
    | string text =>
      rw [run_ifNext_found rfl]
      exact (takes_readString text).map Json.string rest
    | number value =>
      rw [run_ifNext_other, run_ifNext_other]
      · exact (reads_readNumber value).map Json.number rest hRest
      · exact head?_jsonNumber (by decide) (by decide) value rest
      · exact head?_jsonNumber (by decide) (by decide) value rest
    | object fields =>
      have hFields := takes_readFields fields (Nat.le_of_succ_le_succ h) true
      rw [run_ifNext_other, run_ifNext_found rfl]
      · exact (takes_expect '{').bind (hFields.map Json.object) rest
      · exact fun hHead => absurd (Option.some.inj hHead) (by decide)

theorem takes_readFields (fields : JsonFields) {fuel : Nat} (h : fields.size ≤ fuel)
    (first : Bool) : Takes (readFields fuel first) (fields.text first) fields := by
  intro rest
  cases fuel with
  | zero => cases fields <;> cases h
  | succ fuel =>
    rw [readFields]
    cases fields with
    | nil =>
      rw [run_ifNext_found rfl]
      exact (takes_expect '}').map (fun _ => JsonFields.nil) rest
    | cons name value fields =>
      rw [JsonFields.size] at h
      have hValue : Reads (readJson fuel) value.text value := reads_readJson value (by omega)
      have hFields : Takes (readFields fuel false) (fields.text false) fields :=
        takes_readFields fields (by omega) false
      rw [run_ifNext_other (JsonFields.head?_cons first name value fields rest)]
      exact ((takes_readComma first).bind <| (takes_readString name).bind <|
        (takes_expect ':').bind <| hValue.bind fields.ends_text <|
        hFields.map (JsonFields.cons name value)) rest

end

mutual

theorem Json.size_le (json : Json) : json.size ≤ json.text.length := by
  cases json with
  | string text => exact Nat.succ_le_succ (Nat.zero_le _)
  | number value =>
    rw [Json.size, Json.text, Nat.succ_le_iff, List.length_pos_iff, jsonNumber]
    split
    · exact Nat.toDigits_ne_nil
    · exact List.cons_ne_nil _ _
  | object fields =>
    have hFields := fields.size_le true
    rw [Json.size, Json.text, List.length_append, List.length_singleton]
    omega

theorem JsonFields.size_le (fields : JsonFields) (first : Bool) :
    fields.size ≤ (fields.text first).length := by
  cases fields with
  | nil => exact le_rfl
  | cons name value fields =>
    have hValue := value.size_le
    have hFields := fields.size_le false
    simp only [JsonFields.size, JsonFields.text, List.length_append, List.length_singleton]
    omega

end

def parseJson (text : List Char) : Option Json :=
  readAll (readJson text.length) text

theorem parseJson_text (json : Json) : parseJson json.text = some json := by
  have hRead := reads_readJson json json.size_le [] ends_nil
  rw [List.append_nil] at hRead
  rw [parseJson, readAll, hRead]

/-! ## Structs -/

def JsonFields.ofList : List (String × Json) → JsonFields
  | [] => .nil
  | field :: fields => .cons field.1.toList field.2 (ofList fields)

def Json.struct (fields : List (String × Json)) : Json :=
  .object (.ofList fields)

def JsonFields.find? (name : List Char) : JsonFields → Option Json
  | .nil => none
  | .cons found value fields => if name = found then some value else fields.find? name

def Json.field? (name : String) : Json → Option Json
  | .object fields => fields.find? name.toList
  | _ => none

@[simp]
theorem field?_struct (name : String) (fields : List (String × Json)) :
    (Json.struct fields).field? name = fields.lookup name := by
  rw [Json.struct, Json.field?]
  induction fields with
  | nil => rfl
  | cons field fields ih =>
    rw [JsonFields.ofList, JsonFields.find?, ih, List.lookup_cons]
    by_cases hName : name = field.1
    · rw [if_pos (congrArg String.toList hName), beq_iff_eq.mpr hName]
    · rw [if_neg fun heq => hName (String.toList_injective heq), beq_eq_false_iff_ne.mpr hName]

/-- The field of the name, and the zero value of its type where it is left out. -/
def Json.member {A : Type} (json : Json) (name : String) (zero : A) (read : Json → Option A) :
    Option A :=
  (json.field? name).elim (some zero) read

/-- A field that is left out where its value is empty. -/
def omitEmpty (name : String) (filled : Prop) [Decidable filled] (value : Json) :
    List (String × Json) :=
  if filled then [(name, value)] else []

@[simp]
theorem lookup_omitEmpty (name other : String) (filled : Prop) [Decidable filled] (value : Json) :
    (omitEmpty name filled value).lookup other =
      if other = name ∧ filled then some value else none := by
  rw [omitEmpty]
  by_cases hFilled : filled <;> by_cases hName : other = name <;>
    simp [List.lookup, hFilled, hName, beq_eq_false_iff_ne.mpr]

def Json.string? : Json → Option String
  | .string text => some (String.ofList text)
  | _ => none

def Json.number? : Json → Option Int
  | .number value => some value
  | _ => none

/-! ## Bytes -/

def jsonBytes (json : Json) : Bytes :=
  textBytes (String.ofList json.text)

def bytesJson? (bytes : Bytes) : Option Json :=
  (bytesText? bytes).bind fun text => parseJson text.toList

@[simp]
theorem bytesJson?_jsonBytes (json : Json) : bytesJson? (jsonBytes json) = some json := by
  rw [bytesJson?, jsonBytes, bytesText?_textBytes, Option.bind_some, String.toList_ofList,
    parseJson_text]

theorem jsonBytes_ne_nil (json : Json) : jsonBytes json ≠ [] := by
  intro hNil
  have hRead := bytesJson?_jsonBytes json
  rw [hNil] at hRead
  have hNone : bytesJson? [] = none := by decide +kernel
  rw [hNone] at hRead
  cases hRead

end Craq.Lib
