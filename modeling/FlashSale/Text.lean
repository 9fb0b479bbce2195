import Mathlib.Data.String.Defs
/-!
# Emails and sale ids as the stores compare them

An email is compared case-insensitively in both stores: Postgres keeps it as
`citext`, Redis keeps `normalizeEmail` of it. A sale id is a `uuid` in
Postgres, which ignores the case of hex letters, and part of a key in Redis,
which does not.
-/

namespace FlashSale

/-- `String.prototype.toLowerCase` on ASCII. -/
def toLowerCase (s : String) : String := String.ofList (s.toList.map Char.toLower)

theorem char_toLower_idem (c : Char) : c.toLower.toLower = c.toLower := by
  delta Char.toLower
  grind

@[simp] theorem toLowerCase_idem (s : String) : toLowerCase (toLowerCase s) = toLowerCase s := by
  simp only [toLowerCase, String.toList_ofList, List.map_map]
  congr 1
  exact List.map_congr_left fun c _ => char_toLower_idem c

/-- `normalizeEmail` (packages/redis). -/
def normalizeEmail (email : String) : String := toLowerCase email

/-- What Postgres compares a `citext` value by: its `lower`, here on ASCII. -/
def citextLower (s : String) : String := String.ofList (s.toList.map Char.toLower)

/-- Redis and Postgres take the same emails for one buyer's. -/
@[simp] theorem citextLower_eq (email : String) : citextLower email = normalizeEmail email := rfl

/-! ## Sale ids -/

/-- A `uuid` value, as Postgres prints it: in lower case. -/
structure Uuid where
  text : String
  printed : toLowerCase text = text
deriving DecidableEq, Repr

@[ext] theorem Uuid.ext' {a b : Uuid} (h : a.text = b.text) : a = b := by
  cases a; cases b; simp_all

/-- The cast to `uuid` that Postgres makes of an id it is given as text. -/
def Uuid.ofText (id : String) : Uuid := ⟨toLowerCase id, toLowerCase_idem id⟩

@[simp] theorem Uuid.ofText_text (u : Uuid) : Uuid.ofText u.text = u :=
  Uuid.ext' u.printed

/-- One hex digit, in either case. -/
def isHex (c : Char) : Bool := c.isDigit || ('a' ≤ c.toLower && c.toLower ≤ 'f')

/-- What `z.uuid()` wants of the character at place `i`: dashes after 8, 12, 16
and 20 digits, a version from 1 to 8, a variant of 8, 9, a or b. -/
def uuidChar (i : Nat) (c : Char) : Bool :=
  if i = 8 ∨ i = 13 ∨ i = 18 ∨ i = 23 then c = '-'
  else if i = 14 then '1' ≤ c && c ≤ '8'
  else if i = 19 then c = '8' || c = '9' || c.toLower = 'a' || c.toLower = 'b'
  else isHex c

/-- `UuidParamSchema`: the path ids the api accepts. The id is passed on as it
was spelled. -/
def uuidParamAccepts (id : String) : Bool :=
  (id.toList.length = 36 && (id.toList.zipIdx.all fun (c, i) => uuidChar i c)) ||
    id = "00000000-0000-0000-0000-000000000000" || id = "ffffffff-ffff-ffff-ffff-ffffffffffff"

end FlashSale
