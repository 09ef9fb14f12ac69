import Mathlib.Data.List.Basic
import Mathlib.Tactic.Common
import Mathlib.Tactic.SplitIfs

/-! The strict Base64 decoder: the alphabet alone, whole quanta, and padding in its place. The bits of the last quantum
that belong to no byte are not looked at. -/

namespace PlatformGitops.Library.Base64

def value? (c : Char) : Option Nat :=
  if 'A' ≤ c ∧ c ≤ 'Z' then some (c.toNat - 65)
  else if 'a' ≤ c ∧ c ≤ 'z' then some (c.toNat - 71)
  else if '0' ≤ c ∧ c ≤ '9' then some (c.toNat + 4)
  else if c = '+' then some 62
  else if c = '/' then some 63
  else none

def firstByte (x y : Nat) : UInt8 := UInt8.ofNat (x * 4 + y / 16)
def secondByte (y z : Nat) : UInt8 := UInt8.ofNat (y % 16 * 16 + z / 4)
def thirdByte (z w : Nat) : UInt8 := UInt8.ofNat (z % 4 * 64 + w)

def decode : List Char → Option (List UInt8)
  | [] => some []
  | [a, b, '=', '='] => do
    let x ← value? a
    let y ← value? b
    some [firstByte x y]
  | [a, b, c, '='] => do
    let x ← value? a
    let y ← value? b
    let z ← value? c
    some [firstByte x y, secondByte y z]
  | a :: b :: c :: d :: rest => do
    let x ← value? a
    let y ← value? b
    let z ← value? c
    let w ← value? d
    let bytes ← decode rest
    some (firstByte x y :: secondByte y z :: thirdByte z w :: bytes)
  | _ => none

/-- The bits of the last quantum that belong to no byte. -/
def unusedBits : List Char → Nat
  | [_, b, '=', '='] => (value? b).getD 0 % 16
  | [_, _, c, '='] => (value? c).getD 0 % 4
  | _ :: _ :: _ :: _ :: rest => unusedBits rest
  | _ => 0

example : decode ['a'] = none ∧ unusedBits ['a'] = 0 := by
  simp [decode, unusedBits]

example : decode "aGk=".toList = some [104, 105] ∧ decode "aGl=".toList = some [104, 105] ∧
    unusedBits "aGk=".toList = 0 ∧ unusedBits "aGl=".toList = 1 := by
  decide

lemma value?_toNat {c : Char} {x : Nat} (h : value? c = some x) :
    x < 26 ∧ c.toNat = x + 65 ∨ 26 ≤ x ∧ x < 52 ∧ c.toNat = x + 71 ∨ 52 ≤ x ∧ x < 62 ∧ c.toNat + 4 = x ∨
      x = 62 ∧ c.toNat = 43 ∨ x = 63 ∧ c.toNat = 47 := by
  simp only [value?, Char.le_def, UInt32.le_iff_toNat_le] at h
  have hc : c.val.toNat = c.toNat := rfl
  have hA : 'A'.val.toNat = 65 := rfl
  have hZ : 'Z'.val.toNat = 90 := rfl
  have ha : 'a'.val.toNat = 97 := rfl
  have hz : 'z'.val.toNat = 122 := rfl
  have h0 : '0'.val.toNat = 48 := rfl
  have h9 : '9'.val.toNat = 57 := rfl
  split_ifs at h with hupper hlower hdigit hplus hslash <;> simp only [Option.some.injEq] at h
  · omega
  · omega
  · omega
  · subst hplus h
    decide
  · subst hslash h
    decide

lemma value?_lt {c : Char} {x : Nat} (h : value? c = some x) : x < 64 := by
  have := value?_toNat h
  omega

lemma value?_injective {c d : Char} {x : Nat} (hc : value? c = some x) (hd : value? d = some x) : c = d := by
  have := value?_toNat hc
  have := value?_toNat hd
  exact Char.toNat_inj.mp (by omega)

lemma value?_pad : value? '=' = none := by
  decide

lemma firstByte_inj {x y x' y' : Nat} (hx : x < 64) (hy : y < 64) (hx' : x' < 64) (hy' : y' < 64)
    (h : firstByte x y = firstByte x' y') : x = x' ∧ y / 16 = y' / 16 := by
  have htoNat := congrArg UInt8.toNat h
  simp only [firstByte, UInt8.toNat_ofNat'] at htoNat
  omega

lemma secondByte_inj {y z y' z' : Nat} (hz : z < 64) (hz' : z' < 64)
    (h : secondByte y z = secondByte y' z') : y % 16 = y' % 16 ∧ z / 4 = z' / 4 := by
  have htoNat := congrArg UInt8.toNat h
  simp only [secondByte, UInt8.toNat_ofNat'] at htoNat
  omega

lemma thirdByte_inj {z w z' w' : Nat} (hw : w < 64) (hw' : w' < 64)
    (h : thirdByte z w = thirdByte z' w') : z % 4 = z' % 4 ∧ w = w' := by
  have htoNat := congrArg UInt8.toNat h
  simp only [thirdByte, UInt8.toNat_ofNat'] at htoNat
  omega

/-- A text that is decoded: its last quantum gives one, two or three bytes. -/
inductive Decodes : List Char → List UInt8 → Prop
  | nil : Decodes [] []
  | one {a b : Char} {x y : Nat} : value? a = some x → value? b = some y →
      Decodes [a, b, '=', '='] [firstByte x y]
  | two {a b c : Char} {x y z : Nat} : value? a = some x → value? b = some y → value? c = some z →
      Decodes [a, b, c, '='] [firstByte x y, secondByte y z]
  | three {a b c d : Char} {x y z w : Nat} {rest : List Char} {bytes : List UInt8} : value? a = some x →
      value? b = some y → value? c = some z → value? d = some w → Decodes rest bytes →
      Decodes (a :: b :: c :: d :: rest) (firstByte x y :: secondByte y z :: thirdByte z w :: bytes)

lemma decodes_of_decode {s : List Char} {bytes : List UInt8} (h : decode s = some bytes) : Decodes s bytes := by
  fun_induction decode s generalizing bytes with
  | case1 =>
    cases h
    exact .nil
  | case2 a b =>
    simp only [Option.bind_eq_bind, Option.bind_eq_some_iff] at h
    obtain ⟨x, hx, y, hy, h⟩ := h
    cases h
    exact .one hx hy
  | case3 a b c _ =>
    simp only [Option.bind_eq_bind, Option.bind_eq_some_iff] at h
    obtain ⟨x, hx, y, hy, z, hz, h⟩ := h
    cases h
    exact .two hx hy hz
  | case4 a b c d rest _ _ ih =>
    simp only [Option.bind_eq_bind, Option.bind_eq_some_iff] at h
    obtain ⟨x, hx, y, hy, z, hz, w, hw, bytes, hbytes, h⟩ := h
    cases h
    exact .three hx hy hz hw (ih hbytes)
  | case5 => cases h

lemma unusedBits_two {a b c : Char} {z : Nat} (hc : value? c = some z) : unusedBits [a, b, c, '='] = z % 4 := by
  have hpad : c ≠ '=' := by
    rintro rfl
    cases hc
  rw [unusedBits]
  · simp [hc]
  · exact hpad

lemma unusedBits_three {a b c d : Char} {rest : List Char} {w : Nat} (hd : value? d = some w) :
    unusedBits (a :: b :: c :: d :: rest) = unusedBits rest := by
  have hpad : d ≠ '=' := by
    rintro rfl
    cases hd
  rw [unusedBits]
  · exact fun _ hd _ => hpad hd
  · exact fun hd _ => hpad hd

/-- Two texts of the same bytes differ in the unused bits or not at all. -/
lemma eq_of_unusedBits {s t : List Char} {bytes : List UInt8} (hs : Decodes s bytes) (ht : Decodes t bytes)
    (h : unusedBits s = unusedBits t) : s = t := by
  induction hs generalizing t with
  | nil =>
    cases ht
    rfl
  | @one a b x y hx hy =>
    generalize hbytes : [firstByte x y] = bytes at ht
    cases ht with
    | @one a' b' x' y' hx' hy' =>
      obtain ⟨rfl, hhigh⟩ := firstByte_inj (value?_lt hx) (value?_lt hy) (value?_lt hx') (value?_lt hy')
        (List.cons.inj hbytes).1
      simp only [unusedBits, hy, hy', Option.getD_some] at h
      obtain rfl : y = y' := by omega
      rw [value?_injective hx hx', value?_injective hy hy']
    | _ => simp at hbytes
  | @two a b c x y z hx hy hz =>
    generalize hbytes : [firstByte x y, secondByte y z] = bytes at ht
    cases ht with
    | @two a' b' c' x' y' z' hx' hy' hz' =>
      simp only [List.cons.injEq, and_true] at hbytes
      obtain ⟨rfl, hyhigh⟩ := firstByte_inj (value?_lt hx) (value?_lt hy) (value?_lt hx') (value?_lt hy') hbytes.1
      obtain ⟨hylow, hzhigh⟩ := secondByte_inj (value?_lt hz) (value?_lt hz') hbytes.2
      rw [unusedBits_two hz, unusedBits_two hz'] at h
      obtain rfl : y = y' := by omega
      obtain rfl : z = z' := by omega
      rw [value?_injective hx hx', value?_injective hy hy', value?_injective hz hz']
    | _ => simp at hbytes
  | @three a b c d x y z w rest bytes hx hy hz hw _ ih =>
    generalize hall : firstByte x y :: secondByte y z :: thirdByte z w :: bytes = all at ht
    cases ht with
    | @three a' b' c' d' x' y' z' w' rest' bytes' hx' hy' hz' hw' hrest' =>
      simp only [List.cons.injEq] at hall
      obtain ⟨hfirst, hsecond, hthird, rfl⟩ := hall
      obtain ⟨rfl, hyhigh⟩ := firstByte_inj (value?_lt hx) (value?_lt hy) (value?_lt hx') (value?_lt hy') hfirst
      obtain ⟨hylow, hzhigh⟩ := secondByte_inj (value?_lt hz) (value?_lt hz') hsecond
      obtain ⟨hzlow, rfl⟩ := thirdByte_inj (value?_lt hw) (value?_lt hw') hthird
      rw [unusedBits_three hw, unusedBits_three hw'] at h
      obtain rfl : y = y' := by omega
      obtain rfl : z = z' := by omega
      rw [value?_injective hx hx', value?_injective hy hy', value?_injective hz hz', value?_injective hw hw',
        ih hrest' h]
    | _ => simp at hall

end PlatformGitops.Library.Base64
