import Mathlib.Data.List.Basic
import Mathlib.Data.Nat.Notation
/-!
# JSON

JSON values, their text as `JSON.stringify` writes it, and `JSON.parse`: blanks
between tokens, the escapes of strings with surrogate pairs, nesting. Numbers
are integers; a fraction, an exponent or a lone surrogate is not read. What was
written is read back (`parse_print`), so no two values have one text.
-/

namespace FlashSale.Lib.Json

inductive Value where
  | null
  | bool (b : Bool)
  | num (n : Int)
  | str (s : String)
  | arr (elements : List Value)
  | obj (members : List (String × Value))

/-- The property `key` of an object: where a key is repeated, the last counts. -/
def Value.get (key : String) : Value → Option Value
  | .obj members => (members.reverse.find? (·.1 = key)).map (·.2)
  | _ => none

def Value.getStr (key : String) (x : Value) : Option String :=
  match x.get key with
  | some (.str s) => some s
  | _ => none

def Value.getNullable (key : String) (x : Value) : Option (Option String) :=
  match x.get key with
  | some .null => some none
  | some (.str s) => some (some s)
  | _ => none

def Value.getInt (key : String) (x : Value) : Option Int :=
  match x.get key with
  | some (.num n) => some n
  | _ => none

def Value.getArr (key : String) (x : Value) : Option (List Value) :=
  match x.get key with
  | some (.arr xs) => some xs
  | _ => none

/-! ## Writing -/

/-- A character inside of a string. -/
def escape (c : Char) : List Char :=
  if c = '"' then ['\\', '"']
  else if c = '\\' then ['\\', '\\']
  else if c = '\x08' then ['\\', 'b']
  else if c = '\t' then ['\\', 't']
  else if c = '\n' then ['\\', 'n']
  else if c = '\x0c' then ['\\', 'f']
  else if c = '\r' then ['\\', 'r']
  else if c < ' ' then ['\\', 'u', '0', '0', Nat.digitChar (c.toNat / 16), Nat.digitChar (c.toNat % 16)]
  else [c]

def printString (s : String) : List Char := '"' :: (s.toList.flatMap escape ++ ['"'])

def printInt (n : Int) : List Char := (if n < 0 then ['-'] else []) ++ Nat.toDigits 10 n.natAbs

mutual

def printValue : Value → List Char
  | .null => ['n', 'u', 'l', 'l']
  | .bool true => ['t', 'r', 'u', 'e']
  | .bool false => ['f', 'a', 'l', 's', 'e']
  | .num n => printInt n
  | .str s => printString s
  | .arr [] => ['[', ']']
  | .arr (x :: xs) => '[' :: (printValue x ++ printElements xs)
  | .obj [] => ['{', '}']
  | .obj ((key, x) :: members) => '{' :: (printString key ++ ':' :: (printValue x ++ printMembers members))

/-- What follows an element, up to the end of the array. -/
def printElements : List Value → List Char
  | [] => [']']
  | x :: xs => ',' :: (printValue x ++ printElements xs)

def printMembers : List (String × Value) → List Char
  | [] => ['}']
  | (key, x) :: members => ',' :: (printString key ++ ':' :: (printValue x ++ printMembers members))

end

/-- `JSON.stringify`. -/
def print (x : Value) : String := String.ofList (printValue x)

/-! ## Reading -/

def isBlank (c : Char) : Bool := c = ' ' || c = '\n' || c = '\r' || c = '\t'

def skipBlanks (cs : List Char) : List Char := cs.dropWhile isBlank

def hexValue (c : Char) : Option Nat :=
  if c.isDigit then some (c.toNat - 48)
  else if 'a' ≤ c && c ≤ 'f' then some (c.toNat - 87)
  else if 'A' ≤ c && c ≤ 'F' then some (c.toNat - 55)
  else none

/-- Four hex digits: a code unit. -/
def parseHex : List Char → Option (Nat × List Char)
  | a :: b :: c :: d :: cs => do
    let a ← hexValue a
    let b ← hexValue b
    let c ← hexValue c
    let d ← hexValue d
    some (((a * 16 + b) * 16 + c) * 16 + d, cs)
  | _ => none

/-- A code unit after `\u`, with the second of a surrogate pair. -/
def parseUnit (cs : List Char) : Option (Char × List Char) := do
  let (n, cs) ← parseHex cs
  if 0xd800 ≤ n && n < 0xdc00 then
    match cs with
    | '\\' :: 'u' :: cs =>
      let (m, cs) ← parseHex cs
      if 0xdc00 ≤ m && m < 0xe000 then some (Char.ofNat (0x10000 + (n - 0xd800) * 0x400 + (m - 0xdc00)), cs) else none
    | _ => none
  else if 0xdc00 ≤ n && n < 0xe000 then none
  else some (Char.ofNat n, cs)

/-- What stands after a backslash. -/
def unescape : List Char → Option (Char × List Char)
  | '"' :: cs => some ('"', cs)
  | '\\' :: cs => some ('\\', cs)
  | '/' :: cs => some ('/', cs)
  | 'b' :: cs => some ('\x08', cs)
  | 'f' :: cs => some ('\x0c', cs)
  | 'n' :: cs => some ('\n', cs)
  | 'r' :: cs => some ('\r', cs)
  | 't' :: cs => some ('\t', cs)
  | 'u' :: cs => parseUnit cs
  | _ => none

/-- The rest of a string, after its opening quote. -/
def parseString : ℕ → List Char → Option (List Char × List Char)
  | 0, _ => none
  | _ + 1, [] => none
  | fuel + 1, c :: cs =>
    if c = '"' then some ([], cs)
    else if c = '\\' then do
      let (c, cs) ← unescape cs
      let (s, cs) ← parseString fuel cs
      some (c :: s, cs)
    else if c < ' ' then none
    else do
      let (s, cs) ← parseString fuel cs
      some (c :: s, cs)

/-- Digits, with no zero before another digit. -/
def parseNat (cs : List Char) : Option (ℕ × List Char) :=
  let digits := cs.takeWhile Char.isDigit
  if digits = [] || (digits.head? = some '0' && digits.length ≠ 1) then none
  else some (Nat.ofDigitChars 10 digits 0, cs.dropWhile Char.isDigit)

def parseInt : List Char → Option (Int × List Char)
  | '-' :: cs => do
    let (n, cs) ← parseNat cs
    some (-n, cs)
  | cs => do
    let (n, cs) ← parseNat cs
    some (n, cs)

mutual

def parseValue : ℕ → List Char → Option (Value × List Char)
  | 0, _ => none
  | fuel + 1, cs =>
    match skipBlanks cs with
    | 'n' :: 'u' :: 'l' :: 'l' :: cs => some (.null, cs)
    | 't' :: 'r' :: 'u' :: 'e' :: cs => some (.bool true, cs)
    | 'f' :: 'a' :: 'l' :: 's' :: 'e' :: cs => some (.bool false, cs)
    | '"' :: cs => do
      let (s, cs) ← parseString cs.length cs
      some (.str (String.ofList s), cs)
    | '[' :: cs =>
      match skipBlanks cs with
      | ']' :: cs => some (.arr [], cs)
      | cs => do
        let (x, cs) ← parseValue fuel cs
        let (xs, cs) ← parseElements fuel cs
        some (.arr (x :: xs), cs)
    | '{' :: cs =>
      match skipBlanks cs with
      | '}' :: cs => some (.obj [], cs)
      | '"' :: cs => do
        let (key, cs) ← parseString cs.length cs
        let (x, cs) ← parseMember fuel cs
        let (members, cs) ← parseMembers fuel cs
        some (.obj ((String.ofList key, x) :: members), cs)
      | _ => none
    | cs => do
      let (n, cs) ← parseInt cs
      some (.num n, cs)

/-- A colon and a member's value. -/
def parseMember : ℕ → List Char → Option (Value × List Char)
  | 0, _ => none
  | fuel + 1, cs =>
    match skipBlanks cs with
    | ':' :: cs => parseValue fuel cs
    | _ => none

def parseElements : ℕ → List Char → Option (List Value × List Char)
  | 0, _ => none
  | fuel + 1, cs =>
    match skipBlanks cs with
    | ']' :: cs => some ([], cs)
    | ',' :: cs => do
      let (x, cs) ← parseValue fuel cs
      let (xs, cs) ← parseElements fuel cs
      some (x :: xs, cs)
    | _ => none

def parseMembers : ℕ → List Char → Option (List (String × Value) × List Char)
  | 0, _ => none
  | fuel + 1, cs =>
    match skipBlanks cs with
    | '}' :: cs => some ([], cs)
    | ',' :: cs =>
      match skipBlanks cs with
      | '"' :: cs => do
        let (key, cs) ← parseString cs.length cs
        let (x, cs) ← parseMember fuel cs
        let (members, cs) ← parseMembers fuel cs
        some ((String.ofList key, x) :: members, cs)
      | _ => none
    | _ => none

end

/-- `JSON.parse`; nothing when it throws, or on a text with a fraction, an
exponent or a lone surrogate, which `JSON.parse` does read. Each call reads a
character first. -/
def parse (text : String) : Option Value := do
  let (x, rest) ← parseValue (text.toList.length + 1) text.toList
  if skipBlanks rest = [] then some x else none

/-! ## What was written is read back -/

/-! ### Strings -/

theorem hexValue_digitChar {n : ℕ} (h : n < 16) : hexValue n.digitChar = some n := by
  revert n
  decide

/-- An escaped control character is read as a code unit. -/
theorem parseUnit_control {c : Char} (h : c < ' ') (cs : List Char) :
    parseUnit ('0' :: '0' :: Nat.digitChar (c.toNat / 16) :: Nat.digitChar (c.toNat % 16) :: cs) = some (c, cs) := by
  have hc : c.toNat < 32 := h
  have hhex : parseHex ('0' :: '0' :: Nat.digitChar (c.toNat / 16) :: Nat.digitChar (c.toNat % 16) :: cs) =
      some (c.toNat, cs) := by
    have hzero : hexValue '0' = some 0 := by decide
    have hsum : ((0 * 16 + 0) * 16 + c.toNat / 16) * 16 + c.toNat % 16 = c.toNat := by omega
    simp only [parseHex, hzero, hexValue_digitChar (by omega : c.toNat / 16 < 16),
      hexValue_digitChar (by omega : c.toNat % 16 < 16), Option.bind_eq_bind, Option.bind_some, hsum]
  have hlow : ¬ (0xd800 ≤ c.toNat) := by omega
  have hlow' : ¬ (0xdc00 ≤ c.toNat) := by omega
  simp [parseUnit, hhex, hlow, hlow']

/-- One character is read for each that was written. -/
theorem parseString_escape (fuel : ℕ) (c : Char) (cs : List Char) :
    parseString (fuel + 1) (escape c ++ cs) = (parseString fuel cs).map fun p => (c :: p.1, p.2) := by
  have hmap (p : Option (List Char × List Char)) : (p.bind fun q => some (c :: q.1, q.2)) =
      p.map fun q => (c :: q.1, q.2) := by cases p <;> rfl
  unfold escape
  split_ifs with h1 h2 h3 h4 h5 h6 h7 h8
  any_goals
    subst c
    simp [parseString, unescape, ← hmap]
  · simp [parseString, unescape, parseUnit_control h8, ← hmap]
  · simp [parseString, h1, h2, h8, ← hmap]

theorem parseString_print {fuel : ℕ} (s cs : List Char) (h : s.length < fuel) :
    parseString fuel (s.flatMap escape ++ '"' :: cs) = some (s, cs) := by
  induction s generalizing fuel with
  | nil =>
    obtain ⟨fuel, rfl⟩ := Nat.exists_eq_succ_of_ne_zero (Nat.ne_of_gt h)
    simp [parseString]
  | cons c s ih =>
    obtain ⟨fuel, rfl⟩ := Nat.exists_eq_succ_of_ne_zero (Nat.ne_of_gt (Nat.zero_lt_of_lt h))
    rw [List.flatMap_cons, List.append_assoc, Nat.succ_eq_add_one, parseString_escape, ih (Nat.lt_of_succ_lt_succ h)]
    rfl

theorem escape_length (c : Char) : 1 ≤ (escape c).length := by
  unfold escape
  split_ifs <;> simp

theorem length_le_flatMap_escape (s : List Char) : s.length ≤ (s.flatMap escape).length := by
  induction s with
  | nil => exact Nat.le_refl _
  | cons c s ih =>
    have := escape_length c
    rw [List.flatMap_cons, List.length_append, List.length_cons]
    omega

/-- A string as the parser takes it up, behind its opening quote. -/
theorem parseString_printString (s : String) (cs : List Char) :
    ∃ text, printString s ++ cs = '"' :: text ∧ parseString text.length text = some (s.toList, cs) := by
  refine ⟨s.toList.flatMap escape ++ '"' :: cs, by simp [printString], parseString_print _ _ ?_⟩
  have := length_le_flatMap_escape s.toList
  rw [List.length_append, List.length_cons]
  omega

/-! ### Numbers -/

/-- What follows is not part of the number before it. -/
def NoDigit (cs : List Char) : Prop := ∀ c ∈ cs.head?, c.isDigit = false

theorem toDigits_head (n : ℕ) (h : (Nat.toDigits 10 n).head? = some '0') : n = 0 := by
  induction n using Nat.strongRecOn with
  | ind n ih =>
    by_cases hn : n < 10
    · rw [Nat.toDigits_of_lt_base hn] at h
      simpa using h
    · rw [Nat.toDigits_of_base_le (by decide) (by omega), List.head?_append_of_ne_nil _ Nat.toDigits_ne_nil] at h
      have := ih (n / 10) (by omega) h
      omega

theorem toDigits_isDigit {n : ℕ} : ∀ c ∈ Nat.toDigits 10 n, c.isDigit = true :=
  fun _ hc => Nat.isDigit_of_mem_toDigits (by decide) (by decide) hc

theorem parseNat_print (n : ℕ) {cs : List Char} (h : NoDigit cs) : parseNat (Nat.toDigits 10 n ++ cs) = some (n, cs) := by
  have htake : cs.takeWhile Char.isDigit = [] := by
    cases cs with
    | nil => rfl
    | cons c cs => simp [h c rfl]
  have hdrop : cs.dropWhile Char.isDigit = cs := by
    cases cs with
    | nil => rfl
    | cons c cs => simp [h c rfl]
  have hzero : ¬ ((Nat.toDigits 10 n).head? = some '0' ∧ (Nat.toDigits 10 n).length ≠ 1) := by
    rintro ⟨hhead, hlen⟩
    obtain rfl := toDigits_head n hhead
    exact hlen rfl
  rw [parseNat, List.takeWhile_append_of_pos toDigits_isDigit, List.dropWhile_append_of_pos toDigits_isDigit, htake,
    hdrop, List.append_nil, Nat.ofDigitChars_ten_toDigits]
  simp only [Bool.or_eq_true, Bool.and_eq_true, decide_eq_true_eq, Nat.toDigits_ne_nil, false_or, hzero, if_false]

theorem parseInt_print (n : Int) {cs : List Char} (h : NoDigit cs) : parseInt (printInt n ++ cs) = some (n, cs) := by
  unfold printInt
  split
  · rename_i hn
    simp only [List.cons_append, List.nil_append, parseInt, parseNat_print n.natAbs h, Option.bind_eq_bind,
      Option.bind_some, Option.some.injEq, Prod.mk.injEq, and_true]
    omega
  · rename_i hn
    have hfst : ∀ c ∈ (Nat.toDigits 10 n.natAbs).head?, c ≠ '-' := by
      rintro c hc rfl
      exact absurd (toDigits_isDigit _ (List.mem_of_mem_head? hc)) (by decide)
    rw [List.nil_append, parseInt.eq_2, parseNat_print n.natAbs h]
    · simp only [Option.bind_eq_bind, Option.bind_some, Option.some.injEq, Prod.mk.injEq, and_true]
      omega
    · rintro cs' hcs
      cases hdigits : Nat.toDigits 10 n.natAbs with
      | nil => exact Nat.toDigits_ne_nil hdigits
      | cons c ds =>
        rw [hdigits, List.cons_append] at hcs
        exact hfst c (by simp [hdigits]) (List.cons.inj hcs).1

/-! ### Values -/

theorem skipBlanks_cons {c : Char} (h : isBlank c = false) (cs : List Char) : skipBlanks (c :: cs) = c :: cs := by
  simp [skipBlanks, h]

theorem isBlank_digit {c : Char} (h : c.isDigit = true) : isBlank c = false := by
  simp only [isBlank, Bool.or_eq_false_iff, decide_eq_false_iff_not]
  refine ⟨⟨⟨?_, ?_⟩, ?_⟩, ?_⟩ <;> rintro rfl <;> cases h

/-- A number starts with its sign or a digit. -/
theorem printInt_head (n : Int) : ∃ c cs, printInt n = c :: cs ∧ (c = '-' ∨ c.isDigit = true) := by
  unfold printInt
  split
  · exact ⟨'-', _, rfl, .inl rfl⟩
  · cases h : Nat.toDigits 10 n.natAbs with
    | nil => exact absurd h Nat.toDigits_ne_nil
    | cons c cs => exact ⟨c, cs, rfl, .inr (toDigits_isDigit c (h ▸ List.mem_cons_self : c ∈ Nat.toDigits 10 n.natAbs))⟩

/-- No value starts with a blank or a closing bracket. -/
theorem printValue_head (x : Value) : ∃ c cs, printValue x = c :: cs ∧ isBlank c = false ∧ c ≠ ']' := by
  cases x with
  | null => exact ⟨_, _, rfl, by decide, by decide⟩
  | bool b => cases b <;> exact ⟨_, _, rfl, by decide, by decide⟩
  | num n =>
    obtain ⟨c, cs, h, hc⟩ := printInt_head n
    refine ⟨c, cs, h, ?_, ?_⟩
    · rcases hc with rfl | hc
      · decide
      · exact isBlank_digit hc
    · rintro rfl
      rcases hc with hc | hc <;> cases hc
  | str s => exact ⟨_, _, rfl, by decide, by decide⟩
  | arr xs => cases xs <;> exact ⟨_, _, rfl, by decide, by decide⟩
  | obj members => cases members <;> exact ⟨_, _, rfl, by decide, by decide⟩

theorem parseValue_num {fuel : ℕ} {c : Char} {cs : List Char} (hc : c = '-' ∨ c.isDigit = true) :
    parseValue (fuel + 1) (c :: cs) = (parseInt (c :: cs)).bind fun p => some (.num p.1, p.2) := by
  have hblank : isBlank c = false := by
    rcases hc with rfl | hc
    · decide
    · exact isBlank_digit hc
  have hne : ∀ d : Char, d ≠ '-' → d.isDigit = false → c ≠ d := by
    rintro d hd hd' rfl
    rcases hc with hc | hc
    · exact hd hc
    · rw [hd'] at hc
      cases hc
  rw [parseValue, skipBlanks_cons hblank]
  split
  · rename_i h
    exact absurd (List.cons.inj h).1 (hne _ (by decide) (by decide))
  · rename_i h
    exact absurd (List.cons.inj h).1 (hne _ (by decide) (by decide))
  · rename_i h
    exact absurd (List.cons.inj h).1 (hne _ (by decide) (by decide))
  · rename_i h
    exact absurd (List.cons.inj h).1 (hne _ (by decide) (by decide))
  · rename_i h
    exact absurd (List.cons.inj h).1 (hne _ (by decide) (by decide))
  · rename_i h
    exact absurd (List.cons.inj h).1 (hne _ (by decide) (by decide))
  · rfl

theorem noDigit_elements (xs : List Value) (cs : List Char) : NoDigit (printElements xs ++ cs) := by
  cases xs <;> rintro c hc <;> obtain rfl := Option.some.inj hc <;> decide

theorem noDigit_members (members : List (String × Value)) (cs : List Char) :
    NoDigit (printMembers members ++ cs) := by
  cases members with
  | nil =>
    rintro c hc
    obtain rfl := Option.some.inj hc
    decide
  | cons p members =>
    rintro c hc
    obtain rfl := Option.some.inj hc
    decide

theorem parseValue_str (fuel : ℕ) (text : List Char) :
    parseValue (fuel + 1) ('"' :: text) =
      (parseString text.length text).bind fun p => some (.str (String.ofList p.1), p.2) := by
  rw [parseValue, skipBlanks_cons (by decide)]
  rfl

theorem parseValue_arr (fuel : ℕ) {c : Char} (hblank : isBlank c = false) (hne : c ≠ ']') (cs : List Char) :
    parseValue (fuel + 1) ('[' :: c :: cs) = (parseValue fuel (c :: cs)).bind fun p =>
      (parseElements fuel p.2).bind fun q => some (.arr (p.1 :: q.1), q.2) := by
  rw [parseValue, skipBlanks_cons (by decide)]
  simp only [skipBlanks_cons hblank]
  split
  · rename_i h
    exact absurd (List.cons.inj h).1 hne
  · rfl

theorem parseValue_obj (fuel : ℕ) (text : List Char) :
    parseValue (fuel + 1) ('{' :: '"' :: text) = ((parseString text.length text).bind fun k =>
      (parseMember fuel k.2).bind fun p => (parseMembers fuel p.2).bind fun q =>
        some ((String.ofList k.1, p.1) :: q.1, q.2)).map fun q => (.obj q.1, q.2) := by
  rw [parseValue, skipBlanks_cons (by decide)]
  simp only [skipBlanks_cons (by decide : isBlank '"' = false), Option.map_bind, Function.comp_def, Option.map_some]
  rfl

theorem parseElements_cons (fuel : ℕ) (cs : List Char) :
    parseElements (fuel + 1) (',' :: cs) = (parseValue fuel cs).bind fun p =>
      (parseElements fuel p.2).bind fun q => some (p.1 :: q.1, q.2) := by
  rw [parseElements, skipBlanks_cons (by decide)]
  rfl

theorem parseMembers_cons (fuel : ℕ) (text : List Char) :
    parseMembers (fuel + 1) (',' :: '"' :: text) = (parseString text.length text).bind fun k =>
      (parseMember fuel k.2).bind fun p =>
        (parseMembers fuel p.2).bind fun q => some ((String.ofList k.1, p.1) :: q.1, q.2) := by
  rw [parseMembers, skipBlanks_cons (by decide)]
  simp only [skipBlanks_cons (by decide : isBlank '"' = false)]
  rfl

/-- What enough fuel reads back. -/
structure Reads (fuel : ℕ) : Prop where
  value : ∀ x cs, NoDigit cs → (printValue x).length ≤ fuel → parseValue fuel (printValue x ++ cs) = some (x, cs)
  member : ∀ x cs, NoDigit cs → (printValue x).length < fuel →
    parseMember fuel (':' :: (printValue x ++ cs)) = some (x, cs)
  elements : ∀ xs cs, (printElements xs).length ≤ fuel →
    parseElements fuel (printElements xs ++ cs) = some (xs, cs)
  members : ∀ members cs, (printMembers members).length ≤ fuel →
    parseMembers fuel (printMembers members ++ cs) = some (members, cs)

theorem printValue_pos (x : Value) : 0 < (printValue x).length := by
  obtain ⟨c, cs, h, -⟩ := printValue_head x
  simp [h]

theorem reads_zero : Reads 0 where
  value x cs _ h := absurd (printValue_pos x) (by omega)
  member x cs _ h := absurd h (by omega)
  elements xs cs h := by cases xs <;> simp [printElements] at h
  members members cs h := by
    cases members with
    | nil => simp [printMembers] at h
    | cons p members => simp [printMembers] at h

/-- A key, its value and the members after it. -/
theorem Reads.keyed {fuel : ℕ} (ih : Reads fuel) (key : String) (x : Value) (members : List (String × Value))
    (cs : List Char)
    (h : (printString key ++ ':' :: (printValue x ++ printMembers members)).length ≤ fuel) :
    ∃ text, printString key ++ ':' :: (printValue x ++ printMembers members) ++ cs = '"' :: text ∧
      ((parseString text.length text).bind fun k => (parseMember fuel k.2).bind fun p =>
        (parseMembers fuel p.2).bind fun q => some ((String.ofList k.1, p.1) :: q.1, q.2)) =
          some ((key, x) :: members, cs) := by
  obtain ⟨text, htext, hkey⟩ := parseString_printString key (':' :: (printValue x ++ (printMembers members ++ cs)))
  simp only [List.length_append, List.length_cons] at h
  refine ⟨text, by simpa using htext, ?_⟩
  rw [hkey, Option.bind_some, ih.member x _ (noDigit_members members cs) (by omega), Option.bind_some,
    ih.members members cs (by omega), Option.bind_some, String.ofList_toList]

theorem Reads.value_succ {fuel : ℕ} (ih : Reads fuel) (x : Value) {cs : List Char} (hcs : NoDigit cs)
    (h : (printValue x).length ≤ fuel + 1) : parseValue (fuel + 1) (printValue x ++ cs) = some (x, cs) := by
  cases x with
  | null =>
    change parseValue (fuel + 1) ('n' :: 'u' :: 'l' :: 'l' :: cs) = _
    rw [parseValue, skipBlanks_cons (by decide)]
    rfl
  | bool b =>
    cases b
    · change parseValue (fuel + 1) ('f' :: 'a' :: 'l' :: 's' :: 'e' :: cs) = _
      rw [parseValue, skipBlanks_cons (by decide)]
      rfl
    · change parseValue (fuel + 1) ('t' :: 'r' :: 'u' :: 'e' :: cs) = _
      rw [parseValue, skipBlanks_cons (by decide)]
      rfl
  | num n =>
    obtain ⟨c, ds, hn, hc⟩ := printInt_head n
    have hread := parseInt_print n hcs
    rw [printValue, hn, List.cons_append, parseValue_num hc, ← List.cons_append, ← hn, hread, Option.bind_some]
  | str s =>
    obtain ⟨text, htext, hs⟩ := parseString_printString s cs
    rw [printValue, htext, parseValue_str, hs, Option.bind_some, String.ofList_toList]
  | arr xs =>
    cases xs with
    | nil =>
      change parseValue (fuel + 1) ('[' :: ']' :: cs) = _
      rw [parseValue, skipBlanks_cons (by decide)]
      simp only [skipBlanks_cons (by decide : isBlank ']' = false)]
    | cons x xs =>
      obtain ⟨c, ds, hx, hblank, hne⟩ := printValue_head x
      simp only [printValue, List.length_cons, List.length_append] at h
      have hpos : 0 < (printElements xs).length := by cases xs <;> simp [printElements]
      have htext : printValue (.arr (x :: xs)) ++ cs = '[' :: c :: (ds ++ (printElements xs ++ cs)) := by
        simp [printValue, hx]
      have hback : c :: (ds ++ (printElements xs ++ cs)) = printValue x ++ (printElements xs ++ cs) := by simp [hx]
      rw [htext, parseValue_arr fuel hblank hne, hback, ih.value x _ (noDigit_elements xs cs) (by omega),
        Option.bind_some, ih.elements xs cs (by omega), Option.bind_some]
  | obj members =>
    cases members with
    | nil =>
      change parseValue (fuel + 1) ('{' :: '}' :: cs) = _
      rw [parseValue, skipBlanks_cons (by decide)]
      simp only [skipBlanks_cons (by decide : isBlank '}' = false)]
    | cons p members =>
      obtain ⟨key, x⟩ := p
      simp only [printValue, List.length_cons] at h
      obtain ⟨text, htext, hread⟩ := ih.keyed key x members cs (by omega)
      rw [printValue, List.cons_append, htext, parseValue_obj, hread]
      rfl

theorem reads_succ {fuel : ℕ} (ih : Reads fuel) : Reads (fuel + 1) where
  value x _ hcs h := ih.value_succ x hcs h
  member x cs hcs h := by
    rw [parseMember, skipBlanks_cons (by decide)]
    exact ih.value x cs hcs (Nat.le_of_lt_succ h)
  elements xs cs h := by
    cases xs with
    | nil =>
      change parseElements (fuel + 1) (']' :: cs) = _
      rw [parseElements, skipBlanks_cons (by decide)]
      rfl
    | cons x xs =>
      simp only [printElements, List.length_cons, List.length_append] at h
      have hpos : 0 < (printElements xs).length := by cases xs <;> simp [printElements]
      rw [printElements, List.cons_append, List.append_assoc, parseElements_cons,
        ih.value x _ (noDigit_elements xs cs) (by omega), Option.bind_some, ih.elements xs cs (by omega),
        Option.bind_some]
  members members cs h := by
    cases members with
    | nil =>
      change parseMembers (fuel + 1) ('}' :: cs) = _
      rw [parseMembers, skipBlanks_cons (by decide)]
      rfl
    | cons p members =>
      obtain ⟨key, x⟩ := p
      simp only [printMembers, List.length_cons] at h
      obtain ⟨text, htext, hread⟩ := ih.keyed key x members cs (by omega)
      rw [printMembers, List.cons_append, htext, parseMembers_cons, hread]

theorem reads (fuel : ℕ) : Reads fuel := by
  induction fuel with
  | zero => exact reads_zero
  | succ fuel ih => exact reads_succ ih

/-! ## Main theorem -/

/-- `JSON.parse(JSON.stringify(x))` is `x`. -/
theorem parse_print (x : Value) : parse (print x) = some x := by
  have htext : (print x).toList = printValue x := by simp [print]
  have hread := (reads ((printValue x).length + 1)).value x [] nofun (by simp)
  rw [List.append_nil] at hread
  rw [parse, htext, hread]
  rfl

end FlashSale.Lib.Json
