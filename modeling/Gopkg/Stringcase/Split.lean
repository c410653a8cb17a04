import Mathlib.Data.List.Chain

/-!
# Case styles

`stringcase/stringcase.go`: the words of a string, and the styles that join them, with a separator or with capitals.
-/

namespace Gopkg.Stringcase

/-- The tables of package `unicode`. All that is asked of them is that they are right about ASCII. -/
structure Unicode where
  isUpper : Char → Bool
  isLower : Char → Bool
  isDigit : Char → Bool
  toUpper : Char → Char
  toLower : Char → Char
  isUpper_ascii : ∀ c, c.toNat < 128 → isUpper c = c.isUpper
  isLower_ascii : ∀ c, c.toNat < 128 → isLower c = c.isLower
  isDigit_ascii : ∀ c, c.toNat < 128 → isDigit c = c.isDigit
  toUpper_ascii : ∀ c, c.toNat < 128 → toUpper c = c.toUpper
  toLower_ascii : ∀ c, c.toNat < 128 → toLower c = c.toLower

/-- Tables without any other letters. -/
def Unicode.asciiOnly : Unicode where
  isUpper := Char.isUpper
  isLower := Char.isLower
  isDigit := Char.isDigit
  toUpper := Char.toUpper
  toLower := Char.toLower
  isUpper_ascii _ _ := rfl
  isLower_ascii _ _ := rfl
  isDigit_ascii _ _ := rfl
  toUpper_ascii _ _ := rfl
  toLower_ascii _ _ := rfl

def isSeparator (r : Char) : Bool := r = '_' || r = '-' || r = ' ' || r = '.'

/-- The variables of the loop. -/
structure Scan where
  words : List (List Char)
  cur : List Char
  prev : Char
  deriving DecidableEq, Repr

/-- `if len(cur) > 0 { words = append(words, string(cur)); cur = cur[:0] }` -/
def Scan.flush (st : Scan) : Scan :=
  if st.cur ≠ [] then { st with words := st.words ++ [st.cur], cur := [] } else st

variable (u : Unicode)

/-- The switch of the loop. -/
def Scan.rune (st : Scan) (r : Char) : Scan :=
  if isSeparator r then st.flush
  else if u.isUpper r then
    let st := if st.cur ≠ [] ∧ (u.isLower st.prev ∨ u.isDigit st.prev) then st.flush else st
    { st with cur := st.cur ++ [r] }
  else if u.isLower r then
    match st.cur.reverse with
    | next :: before :: _ =>
        -- `HTTPRequest`: the last capital starts the next word
        if u.isUpper st.prev ∧ u.isUpper before then
          { st with words := st.words ++ [st.cur.dropLast], cur := [next, r] }
        else { st with cur := st.cur ++ [r] }
    | _ => { st with cur := st.cur ++ [r] }
  else if u.isDigit r then { st with cur := st.cur ++ [r] }
  else st

def Scan.step (st : Scan) (r : Char) : Scan := { st.rune u r with prev := r }

def splitRunes (s : List Char) : List (List Char) :=
  (s.foldl (Scan.step u) { words := [], cur := [], prev := Char.ofNat 0 }).flush.words

def split (s : String) : List String := (splitRunes u s.toList).map String.ofList

/-- `strings.ToLower` -/
def lower (w : String) : String := String.ofList (w.toList.map u.toLower)

/-- `strings.ToUpper` -/
def upper (w : String) : String := String.ofList (w.toList.map u.toUpper)

def snake (s : String) : String := "_".intercalate ((split u s).map (lower u))

def screamingSnake (s : String) : String := "_".intercalate ((split u s).map (upper u))

def kebab (s : String) : String := "-".intercalate ((split u s).map (lower u))

/-- The first rune in upper case, and the others in lower case. -/
def title (w : String) : String :=
  match (lower u w).toList with
  | [] => w
  | r :: rs => String.ofList (u.toUpper r :: rs)

/-- What `Camel` writes for its word `i`. -/
def camelWord (i : Nat) (w : String) : String := if i = 0 then lower u w else title u w

def camel (s : String) : String := String.join ((split u s).mapIdx (camelWord u))

def pascal (s : String) : String := String.join ((split u s).map (title u))

end Gopkg.Stringcase
