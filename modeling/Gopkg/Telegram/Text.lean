/-!
# Texts

The functions of Go's `strings` and `strconv` that the handlers use on a user's message.
-/

namespace Gopkg.Telegram

/-- `unicode.IsSpace`. -/
def isSpace (c : Char) : Bool :=
  let n := c.toNat
  (0x09 ≤ n && n ≤ 0x0D) || n == 0x20 || n == 0x85 || n == 0xA0 || n == 0x1680 ||
    (0x2000 ≤ n && n ≤ 0x200A) || n == 0x2028 || n == 0x2029 || n == 0x202F || n == 0x205F || n == 0x3000

/-- `strings.TrimSpace`. -/
def trimSpace (s : String) : String :=
  String.ofList ((s.toList.dropWhile isSpace).reverse.dropWhile isSpace).reverse

/-- `strings.Fields`, on the characters: `cur` is the field being read, reversed. -/
def fieldsGo (cur : List Char) : List Char → List String
  | [] => if cur.isEmpty then [] else [String.ofList cur.reverse]
  | c :: cs =>
      if isSpace c then
        if cur.isEmpty then fieldsGo [] cs else String.ofList cur.reverse :: fieldsGo [] cs
      else fieldsGo (c :: cur) cs

def fields (s : String) : List String := fieldsGo [] s.toList

/-- `strings.HasPrefix`. -/
def hasPrefix (s p : String) : Bool := p.toList.isPrefixOf s.toList

/-- `strings.TrimPrefix`. -/
def trimPrefix (s p : String) : String :=
  if hasPrefix s p then String.ofList (s.toList.drop p.toList.length) else s

/-- The numbers of `strconv.ParseFloat` and `fmt.Sprintf("%.2f", ·)`, and `strings.ToUpper`, which maps
every Unicode letter. -/
structure GoText (F : Type) where
  -- The value, and whether the error is nil.
  parseFloat : String → F × Bool
  -- `x <= 0`, which is false of a NaN.
  leZero : F → Bool
  formatFixed2 : F → String
  toUpper : String → String

end Gopkg.Telegram
