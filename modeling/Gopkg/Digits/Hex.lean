import Mathlib.Data.List.Basic

/-!
# Hexadecimal texts

Two digits for a byte. Letters are written small, and read in either case.
-/

namespace Gopkg.Digits.Hex

def digits : List Char := "0123456789abcdef".toList

def digit (n : Nat) : Char := digits.getD n '0'

def encode (data : List UInt8) : List Char := data.flatMap fun b => [digit (b.toNat / 16), digit (b.toNat % 16)]

def value? (c : Char) : Option Nat :=
  if '0' ≤ c ∧ c ≤ '9' then some (c.toNat - '0'.toNat)
  else if 'a' ≤ c ∧ c ≤ 'f' then some (c.toNat - 'a'.toNat + 10)
  else if 'A' ≤ c ∧ c ≤ 'F' then some (c.toNat - 'A'.toNat + 10)
  else none

def decode : List Char → Option (List UInt8)
  | [] => some []
  | [_] => none
  | hi :: lo :: rest => do
      let h ← value? hi
      let l ← value? lo
      let data ← decode rest
      return UInt8.ofNat (16 * h + l) :: data

/-! ## Digits -/

theorem value?_ascii : ∀ k : Fin 128, ∀ n : Fin 16,
    value? (Char.ofNat k) = some n.val ↔ (Char.ofNat k).toLower = digit n := by
  decide +kernel

theorem value?_lt {c : Char} {n : Nat} (h : value? c = some n) : c.toNat < 128 ∧ n < 16 := by
  have hle : ∀ {a b : Char}, a ≤ b ↔ a.toNat ≤ b.toNat := Iff.rfl
  have hcodes : '0'.toNat = 48 ∧ '9'.toNat = 57 ∧ 'a'.toNat = 97 ∧ 'f'.toNat = 102 ∧ 'A'.toNat = 65 ∧ 'F'.toNat = 70 :=
    ⟨rfl, rfl, rfl, rfl, rfl, rfl⟩
  obtain ⟨h0, h9, ha, hf, hA, hF⟩ := hcodes
  unfold value? at h
  simp only [hle] at h
  rw [h0, h9, ha, hf, hA, hF] at h
  split_ifs at h <;> simp only [Option.some.injEq] at h <;> omega

theorem toLower_of_not_ascii {c : Char} (h : ¬ c.toNat < 128) : c.toLower = c := by
  unfold Char.toLower
  rw [dif_neg]
  rintro ⟨_, hz⟩
  have hle : c.toNat ≤ 90 := hz
  omega

theorem value?_iff {c : Char} {n : Nat} : value? c = some n ↔ n < 16 ∧ c.toLower = digit n := by
  constructor
  · intro h
    obtain ⟨hc, hn⟩ := value?_lt h
    have hall := value?_ascii ⟨c.toNat, hc⟩ ⟨n, hn⟩
    rw [Char.ofNat_toNat] at hall
    exact ⟨hn, hall.mp h⟩
  · rintro ⟨hn, hlower⟩
    have hdigit : ∀ n : Fin 16, (digit n).toNat < 128 := by decide
    have hc : c.toNat < 128 := by
      by_contra hge
      rw [toLower_of_not_ascii hge] at hlower
      exact hge (hlower ▸ hdigit ⟨n, hn⟩)
    have hall := value?_ascii ⟨c.toNat, hc⟩ ⟨n, hn⟩
    rw [Char.ofNat_toNat] at hall
    exact hall.mpr hlower

/-! ## Texts -/

theorem encode_cons (b : UInt8) (data : List UInt8) :
    encode (b :: data) = digit (b.toNat / 16) :: digit (b.toNat % 16) :: encode data := rfl

theorem decode_cons_cons {hi lo : Char} {rest : List Char} {data : List UInt8} :
    decode (hi :: lo :: rest) = some data ↔ ∃ m n data', value? hi = some m ∧ value? lo = some n ∧
      decode rest = some data' ∧ UInt8.ofNat (16 * m + n) :: data' = data := by
  simp only [decode, Option.bind_eq_bind, Option.bind_eq_some_iff, Option.pure_def, Option.some.injEq]
  exact ⟨fun ⟨m, hm, n, hn, data', h⟩ => ⟨m, n, data', hm, hn, h⟩,
    fun ⟨m, n, data', hm, hn, h⟩ => ⟨m, hm, n, hn, data', h⟩⟩

theorem toNat_ofNat_digits {m n : Nat} (hm : m < 16) (hn : n < 16) :
    (UInt8.ofNat (16 * m + n)).toNat / 16 = m ∧ (UInt8.ofNat (16 * m + n)).toNat % 16 = n := by
  rw [UInt8.toNat_ofNat']
  omega

/-- The texts that are read as some bytes are those that these bytes are written as, in either case. -/
theorem decode_eq_some_iff : ∀ {s : List Char} {data : List UInt8},
    decode s = some data ↔ s.map Char.toLower = encode data
  | [], [] => by simp [decode, encode]
  | [], b :: data => by simp [decode, encode_cons]
  | [c], [] => by simp [decode, encode]
  | [c], b :: data => by simp [decode, encode_cons]
  | hi :: lo :: rest, [] => by simp [decode_cons_cons, encode]
  | hi :: lo :: rest, b :: data => by
      rw [decode_cons_cons, encode_cons, List.map_cons, List.map_cons, List.cons.injEq, List.cons.injEq]
      constructor
      · rintro ⟨m, n, data', hm, hn, hdata, heq⟩
        obtain ⟨rfl, rfl⟩ := List.cons.inj heq
        obtain ⟨hm, hhi⟩ := value?_iff.mp hm
        obtain ⟨hn, hlo⟩ := value?_iff.mp hn
        rw [(toNat_ofNat_digits hm hn).1, (toNat_ofNat_digits hm hn).2]
        exact ⟨hhi, hlo, decode_eq_some_iff.mp hdata⟩
      · rintro ⟨hhi, hlo, hrest⟩
        have hb := b.toNat_lt
        refine ⟨b.toNat / 16, b.toNat % 16, data, value?_iff.mpr ⟨by omega, hhi⟩, value?_iff.mpr ⟨by omega, hlo⟩,
          decode_eq_some_iff.mpr hrest, ?_⟩
        rw [Nat.div_add_mod, UInt8.ofNat_toNat]

end Gopkg.Digits.Hex
