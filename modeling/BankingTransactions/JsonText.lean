import Mathlib.Data.List.Basic
import Mathlib.Data.Nat.Basic
import Mathlib.Tactic.Common

/-!
# JSON texts

`dumps` writes a value as Python's `json.dumps` does by default: members and items are
separated by a comma and a blank, and every character that is not printable ASCII is escaped.
`loads` reads a text as `json.loads` does. Numbers are left out. What was written is read back,
so different values have different texts.
-/
namespace BankingTransactions.JsonText

/-- A value. The members of an object are in the order of the text. -/
inductive Json where
  | null
  | bool (b : Bool)
  | str (s : String)
  | arr (items : List Json)
  | obj (members : List (String × Json))

/-! ## Writing -/

def hexDigit (n : ℕ) : Char := if n < 10 then Char.ofNat (48 + n) else Char.ofNat (87 + n)

/-- The characters that are escaped by a letter, and the letter. -/
def letters : List (Char × Char) :=
  [('"', '"'), ('\\', '\\'), ('\n', 'n'), ('\r', 'r'), ('\t', 't'), ('\x0c', 'f'), ('\x08', 'b')]

/-- The escape of a unit of 16 bits. -/
def escapeUnit (n : ℕ) : List Char :=
  ['\\', 'u', hexDigit (n / 4096 % 16), hexDigit (n / 256 % 16), hexDigit (n / 16 % 16),
    hexDigit (n % 16)]

/-- A character inside a string. One beyond the 16 bits is written as two surrogates. -/
def escape (c : Char) : List Char :=
  match letters.lookup c with
  | some letter => ['\\', letter]
  | none =>
    if 32 ≤ c.toNat ∧ c.toNat < 127 then [c]
    else if c.toNat < 0x10000 then escapeUnit c.toNat
    else escapeUnit (0xd800 + (c.toNat - 0x10000) / 1024) ++
      escapeUnit (0xdc00 + (c.toNat - 0x10000) % 1024)

def quote (s : String) : List Char := '"' :: (s.toList.flatMap escape ++ ['"'])

mutual

def dump : Json → List Char
  | .null => ['n', 'u', 'l', 'l']
  | .bool true => ['t', 'r', 'u', 'e']
  | .bool false => ['f', 'a', 'l', 's', 'e']
  | .str s => quote s
  | .arr items => '[' :: dumpItems items
  | .obj members => '{' :: dumpMembers members

/-- The items, and the bracket that closes them. -/
def dumpItems : List Json → List Char
  | [] => [']']
  | [v] => dump v ++ [']']
  | v :: w :: items => dump v ++ ',' :: ' ' :: dumpItems (w :: items)

/-- The members, and the bracket that closes them. -/
def dumpMembers : List (String × Json) → List Char
  | [] => ['}']
  | [(key, v)] => quote key ++ ':' :: ' ' :: (dump v ++ ['}'])
  | (key, v) :: m :: members =>
    quote key ++ ':' :: ' ' :: (dump v ++ ',' :: ' ' :: dumpMembers (m :: members))

end

/-- `json.dumps` -/
def dumps (v : Json) : String := String.ofList (dump v)

/-! ## Reading -/

def hexValue (c : Char) : Option ℕ :=
  if '0' ≤ c ∧ c ≤ '9' then some (c.toNat - 48)
  else if 'a' ≤ c ∧ c ≤ 'f' then some (c.toNat - 87)
  else if 'A' ≤ c ∧ c ≤ 'F' then some (c.toNat - 55)
  else none

/-- The escape of a unit, when the text starts with one. -/
def readUnit : List Char → Option (ℕ × List Char)
  | '\\' :: 'u' :: a :: b :: c :: d :: cs => do
    let a ← hexValue a
    let b ← hexValue b
    let c ← hexValue c
    let d ← hexValue d
    return (4096 * a + 256 * b + 16 * c + d, cs)
  | _ => none

/-- An escaped character. A surrogate that stands alone is refused: no character is one. -/
def readUnicode (cs : List Char) : Option (Char × List Char) := do
  let (high, rest) ← readUnit cs
  if 0xd800 ≤ high ∧ high < 0xdc00 then
    let (low, rest) ← readUnit rest
    if 0xdc00 ≤ low ∧ low < 0xe000 then
      return (Char.ofNat (0x10000 + (1024 * (high - 0xd800) + (low - 0xdc00))), rest)
    else none
  else if 0xdc00 ≤ high ∧ high < 0xe000 then none
  else return (Char.ofNat high, rest)

/-- The character that a letter stands for. -/
def unescape (letter : Char) : Option Char :=
  if letter = '/' then some '/' else (letters.find? fun x => x.2 = letter).map (·.1)

/-- One character of a string. Control characters have to be escaped. -/
def readChar : List Char → Option (Char × List Char)
  | [] => none
  | c :: cs =>
    if c = '\\' then
      match cs with
      | [] => none
      | letter :: rest =>
        if letter = 'u' then readUnicode (c :: cs) else (unescape letter).map fun c => (c, rest)
    else if c.toNat < 32 then none
    else some (c, cs)

/-- The characters up to the quotation mark that ends the string. -/
def readChars : ℕ → List Char → Option (List Char × List Char)
  | 0, _ => none
  | fuel + 1, cs =>
    if cs.head? = some '"' then some ([], cs.tail)
    else do
      let (c, rest) ← readChar cs
      let (s, rest) ← readChars fuel rest
      return (c :: s, rest)

def readString (cs : List Char) : Option (String × List Char) :=
  (readChars (cs.length + 1) cs).map fun (s, rest) => (String.ofList s, rest)

def isSpace (c : Char) : Bool := c = ' ' || c = '\t' || c = '\n' || c = '\r'

def skip (cs : List Char) : List Char := cs.dropWhile isSpace

def readLiteral : List Char → Option (Json × List Char)
  | 'n' :: 'u' :: 'l' :: 'l' :: cs => some (.null, cs)
  | 't' :: 'r' :: 'u' :: 'e' :: cs => some (.bool true, cs)
  | 'f' :: 'a' :: 'l' :: 's' :: 'e' :: cs => some (.bool false, cs)
  | _ => none

mutual

def readValue : ℕ → List Char → Option (Json × List Char)
  | 0, _ => none
  | fuel + 1, cs =>
    match cs with
    | '"' :: cs => (readString cs).map fun (s, rest) => (.str s, rest)
    | '[' :: cs =>
      if (skip cs).head? = some ']' then some (.arr [], (skip cs).tail)
      else (readItems fuel (skip cs)).map fun (items, rest) => (.arr items, rest)
    | '{' :: cs =>
      if (skip cs).head? = some '}' then some (.obj [], (skip cs).tail)
      else (readMembers fuel (skip cs)).map fun (members, rest) => (.obj members, rest)
    | cs => readLiteral cs

/-- At least one item, up to the bracket that closes them. -/
def readItems : ℕ → List Char → Option (List Json × List Char)
  | 0, _ => none
  | fuel + 1, cs => do
    let (v, rest) ← readValue fuel cs
    match skip rest with
    | ']' :: rest => return ([v], rest)
    | ',' :: rest =>
      let (items, rest) ← readItems fuel (skip rest)
      return (v :: items, rest)
    | _ => none

/-- At least one member, up to the bracket that closes them. -/
def readMembers : ℕ → List Char → Option (List (String × Json) × List Char)
  | 0, _ => none
  | fuel + 1, cs =>
    match cs with
    | '"' :: cs => do
      let (key, rest) ← readString cs
      match skip rest with
      | ':' :: rest =>
        let (v, rest) ← readValue fuel (skip rest)
        match skip rest with
        | '}' :: rest => return ([(key, v)], rest)
        | ',' :: rest =>
          let (members, rest) ← readMembers fuel (skip rest)
          return ((key, v) :: members, rest)
        | _ => none
      | _ => none
    | _ => none

end

/-- `json.loads`, for texts without numbers -/
def loads (text : String) : Option Json := do
  let (v, rest) ← readValue (text.length + 1) (skip text.toList)
  if skip rest = [] then return v else none

/-! ## What was written is read back -/

theorem hexValue_hexDigit : ∀ d < 16, hexValue (hexDigit d) = some d := by decide

theorem readUnit_escapeUnit {n : ℕ} (h : n < 0x10000) (rest : List Char) :
    readUnit (escapeUnit n ++ rest) = some (n, rest) := by
  have hdigit (k : ℕ) : hexValue (hexDigit (k % 16)) = some (k % 16) :=
    hexValue_hexDigit _ (Nat.mod_lt _ (by omega))
  have hvalue :
      4096 * (n / 4096 % 16) + 256 * (n / 256 % 16) + 16 * (n / 16 % 16) + n % 16 = n := by
    omega
  change (do
    let a ← hexValue (hexDigit (n / 4096 % 16))
    let b ← hexValue (hexDigit (n / 256 % 16))
    let c ← hexValue (hexDigit (n / 16 % 16))
    let d ← hexValue (hexDigit (n % 16))
    return (4096 * a + 256 * b + 16 * c + d, rest)) = _
  simp only [hdigit, Option.bind_eq_bind, Option.bind_some, hvalue]
  rfl

/-- The letters are read back, and none of them starts a unit. -/
theorem unescape_letters : ∀ x ∈ letters, x.2 ≠ 'u' ∧ unescape x.2 = some x.1 := by decide

/-- No character is a surrogate. -/
theorem toNat_cases (c : Char) : c.toNat < 0xd800 ∨ 0xe000 ≤ c.toNat ∧ c.toNat < 0x110000 := by
  obtain h | ⟨h, hlt⟩ := c.valid
  · exact .inl h
  · exact .inr ⟨Nat.succ_le_of_lt h, hlt⟩

theorem readUnicode_short {n : ℕ} (h : n < 0xd800 ∨ 0xe000 ≤ n) (hn : n < 0x10000)
    (rest : List Char) : readUnicode (escapeUnit n ++ rest) = some (Char.ofNat n, rest) := by
  have hhigh : ¬ (0xd800 ≤ n ∧ n < 0xdc00) := by omega
  have hlow : ¬ (0xdc00 ≤ n ∧ n < 0xe000) := by omega
  simp only [readUnicode, readUnit_escapeUnit hn, Option.bind_eq_bind, Option.bind_some,
    if_neg hhigh, if_neg hlow, Option.pure_def]

theorem readUnicode_long {high low : ℕ} (hhigh : 0xd800 ≤ high ∧ high < 0xdc00)
    (hlow : 0xdc00 ≤ low ∧ low < 0xe000) (rest : List Char) :
    readUnicode (escapeUnit high ++ escapeUnit low ++ rest) =
      some (Char.ofNat (0x10000 + (1024 * (high - 0xd800) + (low - 0xdc00))), rest) := by
  have hread := readUnit_escapeUnit (n := high) (by omega) (escapeUnit low ++ rest)
  have hread' := readUnit_escapeUnit (n := low) (by omega) rest
  simp only [readUnicode, List.append_assoc, hread, hread', Option.bind_eq_bind, Option.bind_some,
    if_pos hhigh, if_pos hlow, Option.pure_def]

theorem surrogates {n : ℕ} (h : 0x10000 ≤ n) :
    0x10000 + (1024 * (0xd800 + (n - 0x10000) / 1024 - 0xd800) +
      (0xdc00 + (n - 0x10000) % 1024 - 0xdc00)) = n := by omega

/-- The escape of a character is read back, and does not start with a quotation mark. -/
theorem readChar_escape (c : Char) (rest : List Char) :
    readChar (escape c ++ rest) = some (c, rest) ∧ (escape c ++ rest).head? ≠ some '"' := by
  have hcases := toNat_cases c
  unfold escape
  split
  · rename_i letter hletter
    obtain ⟨before, after, hmem, -⟩ := List.lookup_eq_some_iff.mp hletter
    obtain ⟨hu, hread⟩ := unescape_letters (c, letter) (by simp [hmem])
    constructor
    · simp [readChar, hu, hread]
    · simp
  · rename_i hnone
    have hplain : c ≠ '\\' ∧ c ≠ '"' := by
      constructor <;> rintro rfl <;> cases hnone
    split_ifs with hascii hshort
    · have hcontrol : ¬ c.toNat < 32 := by omega
      constructor
      · simp [readChar, hplain.1, hcontrol]
      · simpa using hplain.2
    · have hread := readUnicode_short (by omega) hshort rest
      rw [Char.ofNat_toNat] at hread
      exact ⟨hread, by simp [escapeUnit]⟩
    · have hhigh : 0xd800 ≤ 0xd800 + (c.toNat - 0x10000) / 1024 ∧
          0xd800 + (c.toNat - 0x10000) / 1024 < 0xdc00 := by omega
      have hlow : 0xdc00 ≤ 0xdc00 + (c.toNat - 0x10000) % 1024 ∧
          0xdc00 + (c.toNat - 0x10000) % 1024 < 0xe000 := by omega
      have hread := readUnicode_long hhigh hlow rest
      rw [surrogates (by omega), Char.ofNat_toNat] at hread
      exact ⟨hread, by simp [escapeUnit]⟩

theorem readChars_escape (s : List Char) (rest : List Char) {fuel : ℕ} (h : s.length < fuel) :
    readChars fuel (s.flatMap escape ++ '"' :: rest) = some (s, rest) := by
  induction s generalizing fuel with
  | nil =>
    obtain ⟨fuel, rfl⟩ := Nat.exists_eq_succ_of_ne_zero (by omega : fuel ≠ 0)
    rfl
  | cons c s ih =>
    obtain ⟨fuel, rfl⟩ := Nat.exists_eq_succ_of_ne_zero (by omega : fuel ≠ 0)
    obtain ⟨hread, hquote⟩ := readChar_escape c (s.flatMap escape ++ '"' :: rest)
    rw [List.flatMap_cons, List.append_assoc]
    simp only [readChars, if_neg hquote, hread, Option.bind_eq_bind, Option.bind_some,
      ih (Nat.lt_of_succ_lt_succ h), Option.pure_def]

theorem length_le_flatMap_escape (s : List Char) : s.length ≤ (s.flatMap escape).length := by
  induction s with
  | nil => simp
  | cons c s ih =>
    have hne : (escape c).length ≠ 0 := by
      unfold escape
      split
      · simp
      · split_ifs <;> simp [escapeUnit]
    rw [List.flatMap_cons, List.length_append, List.length_cons]
    omega

theorem readString_quote (s : String) (rest : List Char) :
    readString (s.toList.flatMap escape ++ '"' :: rest) = some (s, rest) := by
  have hlength := length_le_flatMap_escape s.toList
  rw [readString, readChars_escape s.toList rest (by rw [List.length_append]; omega)]
  simp

/-! ### Values -/

/-- A value starts neither with a blank nor with a closing bracket. -/
theorem dump_head (v : Json) (rest : List Char) :
    skip (dump v ++ rest) = dump v ++ rest ∧ (dump v ++ rest).head? ≠ some ']' := by
  cases v with
  | null => exact ⟨rfl, by simp [dump]⟩
  | bool b => cases b <;> exact ⟨rfl, by simp [dump]⟩
  | str s => exact ⟨rfl, by simp [dump, quote]⟩
  | arr items => exact ⟨rfl, by simp [dump]⟩
  | obj members => exact ⟨rfl, by simp [dump]⟩

theorem dumpItems_head (v : Json) (items : List Json) (rest : List Char) :
    skip (dumpItems (v :: items) ++ rest) = dumpItems (v :: items) ++ rest ∧
      (dumpItems (v :: items) ++ rest).head? ≠ some ']' := by
  cases items with
  | nil =>
    rw [dumpItems, List.append_assoc]
    exact dump_head v _
  | cons w items =>
    rw [dumpItems, List.append_assoc]
    exact dump_head v _

theorem dumpMembers_head (m : String × Json) (members : List (String × Json)) (rest : List Char) :
    skip (dumpMembers (m :: members) ++ rest) = dumpMembers (m :: members) ++ rest ∧
      (dumpMembers (m :: members) ++ rest).head? ≠ some '}' := by
  cases members with
  | nil => exact ⟨rfl, by simp [dumpMembers, quote]⟩
  | cons m' members => exact ⟨rfl, by simp [dumpMembers, quote]⟩

/-- What fits into the fuel is read back. -/
structure Reads (fuel : ℕ) : Prop where
  value : ∀ v rest, (dump v).length ≤ fuel → readValue fuel (dump v ++ rest) = some (v, rest)
  items : ∀ v items rest, (dumpItems (v :: items)).length ≤ fuel →
    readItems fuel (dumpItems (v :: items) ++ rest) = some (v :: items, rest)
  members : ∀ m members rest, (dumpMembers (m :: members)).length ≤ fuel →
    readMembers fuel (dumpMembers (m :: members) ++ rest) = some (m :: members, rest)

theorem Reads.value_succ {fuel : ℕ} (h : Reads fuel) (v : Json) (rest : List Char)
    (hfuel : (dump v).length ≤ fuel + 1) :
    readValue (fuel + 1) (dump v ++ rest) = some (v, rest) := by
  match v with
  | .null => rfl
  | .bool true => rfl
  | .bool false => rfl
  | .str s =>
    have hread := readString_quote s rest
    simp only [dump, quote, readValue, List.cons_append, List.append_assoc, List.nil_append, hread,
      Option.map_some]
  | .arr [] => rfl
  | .obj [] => rfl
  | .arr (v :: items) =>
    obtain ⟨hskip, hclose⟩ := dumpItems_head v items rest
    have hread := h.items v items rest (Nat.le_of_succ_le_succ hfuel)
    simp only [dump, readValue, List.cons_append, hskip, if_neg hclose, hread, Option.map_some]
  | .obj (m :: members) =>
    obtain ⟨hskip, hclose⟩ := dumpMembers_head m members rest
    have hread := h.members m members rest (Nat.le_of_succ_le_succ hfuel)
    simp only [dump, readValue, List.cons_append, hskip, if_neg hclose, hread, Option.map_some]

theorem Reads.items_succ {fuel : ℕ} (h : Reads fuel) (v : Json) (items : List Json)
    (rest : List Char) (hfuel : (dumpItems (v :: items)).length ≤ fuel + 1) :
    readItems (fuel + 1) (dumpItems (v :: items) ++ rest) = some (v :: items, rest) := by
  cases items with
  | nil =>
    rw [dumpItems, List.length_append, List.length_singleton] at hfuel
    have hread := h.value v (']' :: rest) (by omega)
    rw [dumpItems, List.append_assoc]
    change readItems (fuel + 1) (dump v ++ ']' :: rest) = _
    simp only [readItems, hread, Option.bind_eq_bind, Option.bind_some]
    rfl
  | cons w items =>
    rw [dumpItems, List.length_append, List.length_cons, List.length_cons] at hfuel
    have hread := h.value v (',' :: ' ' :: (dumpItems (w :: items) ++ rest)) (by omega)
    have hread' := h.items w items rest (by omega)
    have hskip := (dumpItems_head w items rest).1
    rw [dumpItems, List.append_assoc]
    change readItems (fuel + 1) (dump v ++ ',' :: ' ' :: (dumpItems (w :: items) ++ rest)) = _
    simp only [readItems, hread, Option.bind_eq_bind, Option.bind_some]
    change (readItems fuel (skip (dumpItems (w :: items) ++ rest))).bind _ = _
    rw [hskip, hread']
    rfl

theorem Reads.members_succ {fuel : ℕ} (h : Reads fuel) (m : String × Json)
    (members : List (String × Json)) (rest : List Char)
    (hfuel : (dumpMembers (m :: members)).length ≤ fuel + 1) :
    readMembers (fuel + 1) (dumpMembers (m :: members) ++ rest) = some (m :: members, rest) := by
  obtain ⟨key, v⟩ := m
  -- the key, the colon and the value
  have hmember (after : List Char) (hv : (dump v).length ≤ fuel) :
      readMembers (fuel + 1) (quote key ++ ':' :: ' ' :: (dump v ++ after)) =
        match skip after with
        | '}' :: rest => some ([(key, v)], rest)
        | ',' :: rest => (readMembers fuel (skip rest)).bind fun (members, rest) =>
          some ((key, v) :: members, rest)
        | _ => none := by
    have hkey := readString_quote key (':' :: ' ' :: (dump v ++ after))
    rw [quote, List.cons_append, List.append_assoc]
    change readMembers (fuel + 1) ('"' :: (key.toList.flatMap escape ++ '"' :: ':' :: ' ' ::
      (dump v ++ after))) = _
    simp only [readMembers, hkey, Option.bind_eq_bind, Option.bind_some]
    change ((readValue fuel (skip (dump v ++ after))).bind _) = _
    rw [(dump_head v after).1, h.value v after hv]
    rfl
  cases members with
  | nil =>
    simp only [dumpMembers, List.length_append, List.length_cons, List.length_nil] at hfuel
    have htext : dumpMembers [(key, v)] ++ rest =
        quote key ++ ':' :: ' ' :: (dump v ++ '}' :: rest) := by simp [dumpMembers]
    rw [htext]
    exact hmember ('}' :: rest) (by omega)
  | cons m' members =>
    simp only [dumpMembers, List.length_append, List.length_cons] at hfuel
    have hread := h.members m' members rest (by omega)
    have hskip := (dumpMembers_head m' members rest).1
    have hfirst := hmember (',' :: ' ' :: (dumpMembers (m' :: members) ++ rest)) (by omega)
    change _ = (readMembers fuel (skip (dumpMembers (m' :: members) ++ rest))).bind _ at hfirst
    rw [hskip, hread] at hfirst
    have htext : dumpMembers ((key, v) :: m' :: members) ++ rest = quote key ++ ':' :: ' ' ::
        (dump v ++ ',' :: ' ' :: (dumpMembers (m' :: members) ++ rest)) := by simp [dumpMembers]
    rw [htext]
    exact hfirst

/-- The induction is on the fuel, which every call of the reader lowers. -/
theorem reads (fuel : ℕ) : Reads fuel := by
  induction fuel with
  | zero =>
    refine ⟨fun v rest h => ?_, fun v items rest h => ?_, fun m members rest h => ?_⟩
    · cases v with
      | bool b => cases b <;> simp [dump] at h
      | _ => simp [dump, quote] at h
    · cases items <;> simp [dumpItems] at h
    · cases members <;> simp [dumpMembers, quote] at h
  | succ fuel ih => exact ⟨ih.value_succ, ih.items_succ, ih.members_succ⟩

theorem loads_dumps (v : Json) : loads (dumps v) = some v := by
  have hread := (reads ((dumps v).length + 1)).value v [] (by simp [dumps])
  rw [List.append_nil] at hread
  have hskip := (dump_head v []).1
  rw [List.append_nil] at hskip
  simp only [loads, dumps, String.toList_ofList, hskip, Option.bind_eq_bind] at hread ⊢
  rw [hread]
  rfl

/-- Different values have different texts. -/
theorem dumps_injective : Function.Injective dumps := by
  intro v w h
  have hv := loads_dumps v
  rw [h, loads_dumps] at hv
  exact (Option.some.inj hv).symm

end BankingTransactions.JsonText
