import Mathlib.Data.List.Basic

/-!
# Base64

The standard alphabet with padding (RFC 4648), as `base64.StdEncoding` has it: line ends are skipped wherever they are,
the padding must be complete, nothing may follow it, and the bits that it leaves over are not looked at.
-/

namespace Gopkg.Base64

def alphabet : List Char := "ABCDEFGHIJKLMNOPQRSTUVWXYZabcdefghijklmnopqrstuvwxyz0123456789+/".toList

def digit (n : Nat) : Char := alphabet.getD n '='

def value? (c : Char) : Option Nat := alphabet.findIdx? (· == c)

/-- Four digits for three bytes, and padding in the place of those that are missing. -/
def encode : List UInt8 → List Char
  | [] => []
  | [a] =>
      let v := a.toNat * 65536
      [digit (v / 262144), digit (v / 4096 % 64), '=', '=']
  | [a, b] =>
      let v := a.toNat * 65536 + b.toNat * 256
      [digit (v / 262144), digit (v / 4096 % 64), digit (v / 64 % 64), '=']
  | a :: b :: c :: rest =>
      let v := a.toNat * 65536 + b.toNat * 256 + c.toNat
      digit (v / 262144) :: digit (v / 4096 % 64) :: digit (v / 64 % 64) :: digit (v % 64) :: encode rest

/-- The first bytes of the number that four digits stand for. -/
def bytesOf (count v : Nat) : List UInt8 :=
  [UInt8.ofNat (v / 65536), UInt8.ofNat (v / 256), UInt8.ofNat v].take count

/-- The number of four values, the digits that are missing being zero. -/
def quantum (a b c d : Nat) : Nat := a * 262144 + b * 4096 + c * 64 + d

/-- The digits without the line ends. -/
def decodeDigits : List Char → Option (List UInt8)
  | [] => some []
  | a :: b :: c :: d :: rest =>
      match value? a, value? b, value? c, value? d with
      | some va, some vb, some vc, some vd => (decodeDigits rest).map (bytesOf 3 (quantum va vb vc vd) ++ ·)
      | some va, some vb, some vc, none =>
          if d = '=' ∧ rest = [] then some (bytesOf 2 (quantum va vb vc 0)) else none
      | some va, some vb, none, none =>
          if c = '=' ∧ d = '=' ∧ rest = [] then some (bytesOf 1 (quantum va vb 0 0)) else none
      | _, _, _, _ => none
  | _ => none

def isLineEnd (c : Char) : Bool := c == '\n' || c == '\r'

def decode (s : List Char) : Option (List UInt8) := decodeDigits (s.filter fun c => !isLineEnd c)

/-! ## The digits -/

theorem value?_digit {n : Nat} (h : n < 64) : value? (digit n) = some n := by
  have hall : ∀ i : Fin 64, value? (digit i) = some i.val := by decide +kernel
  exact hall ⟨n, h⟩

theorem digit_not_lineEnd (n : Nat) : isLineEnd (digit n) = false := by
  have hall : ('=' :: alphabet).all (fun c => isLineEnd c == false) = true := by decide
  refine eq_of_beq (List.all_eq_true.mp hall (digit n) ?_)
  rw [digit, List.getD_eq_getElem?_getD]
  cases hn : alphabet[n]? with
  | none => exact List.mem_cons_self
  | some c => exact List.mem_cons_of_mem _ (List.mem_of_getElem? hn)

theorem value?_pad : value? '=' = none := by decide

theorem pad_not_lineEnd : isLineEnd '=' = false := by decide

theorem encode_no_lineEnd : ∀ data : List UInt8, ∀ c ∈ encode data, isLineEnd c = false
  | [] => nofun
  | [a] => by simp [encode, digit_not_lineEnd, pad_not_lineEnd]
  | [a, b] => by simp [encode, digit_not_lineEnd, pad_not_lineEnd]
  | a :: b :: c :: rest => by
      simp only [encode, List.forall_mem_cons, digit_not_lineEnd, true_and]
      exact encode_no_lineEnd rest

/-! ## The bytes -/

theorem bytesOf_three (a b c : UInt8) : bytesOf 3 (a.toNat * 65536 + b.toNat * 256 + c.toNat) = [a, b, c] := by
  have ha := a.toNat_lt
  have hb := b.toNat_lt
  have hc := c.toNat_lt
  simp only [bytesOf, List.take, List.cons.injEq, and_true, ← UInt8.toNat_inj, UInt8.toNat_ofNat']
  omega

theorem bytesOf_two (a b : UInt8) : bytesOf 2 (a.toNat * 65536 + b.toNat * 256) = [a, b] := by
  have hgroup := congrArg (List.take 2) (bytesOf_three a b 0)
  simpa [bytesOf] using hgroup

theorem bytesOf_one (a : UInt8) : bytesOf 1 (a.toNat * 65536) = [a] := by
  simp [bytesOf]

theorem quantum_digits {v : Nat} : quantum (v / 262144) (v / 4096 % 64) (v / 64 % 64) (v % 64) = v := by
  unfold quantum
  omega

theorem decodeDigits_encode : ∀ data : List UInt8, decodeDigits (encode data) = some data
  | [] => rfl
  | [a] => by
      have ha := a.toNat_lt
      have hv : quantum (a.toNat * 65536 / 262144) (a.toNat * 65536 / 4096 % 64) 0 0 = a.toNat * 65536 := by
        unfold quantum
        omega
      simp only [encode, decodeDigits, value?_pad, value?_digit (show a.toNat * 65536 / 262144 < 64 by omega),
        value?_digit (Nat.mod_lt _ (show 0 < 64 by decide)), hv, and_self, if_true]
      exact congrArg some (bytesOf_one a)
  | [a, b] => by
      have ha := a.toNat_lt
      have hb := b.toNat_lt
      have hv : ∀ v, v % 64 = 0 → quantum (v / 262144) (v / 4096 % 64) (v / 64 % 64) 0 = v := by
        intro v hv
        unfold quantum
        omega
      simp only [encode, decodeDigits, value?_pad,
        value?_digit (show (a.toNat * 65536 + b.toNat * 256) / 262144 < 64 by omega),
        value?_digit (Nat.mod_lt _ (show 0 < 64 by decide)), hv (a.toNat * 65536 + b.toNat * 256) (by omega), and_self,
        if_true]
      exact congrArg some (bytesOf_two a b)
  | a :: b :: c :: rest => by
      have ha := a.toNat_lt
      have hb := b.toNat_lt
      have hc := c.toNat_lt
      simp only [encode, decodeDigits, decodeDigits_encode rest,
        value?_digit (show (a.toNat * 65536 + b.toNat * 256 + c.toNat) / 262144 < 64 by omega),
        value?_digit (Nat.mod_lt _ (show 0 < 64 by decide)), quantum_digits, bytesOf_three, Option.map_some]
      rfl

/-- What was encoded is decoded. -/
theorem decode_encode (data : List UInt8) : decode (encode data) = some data := by
  rw [decode, List.filter_eq_self.mpr, decodeDigits_encode]
  intro c hc
  rw [encode_no_lineEnd data c hc]
  rfl

end Gopkg.Base64
