/-!
# Hexadecimal digits

Digits are written in lowercase and read in either case. A byte is two digits. What is written is
read back (`decode_encode`).
-/

namespace CloudRoster.Text.Hex

/-- The digit of a number below 16. -/
def digit (n : Nat) : Char := Nat.digitChar n

/-- The value of a digit. -/
def value? (c : Char) : Option Nat :=
  if '0' ≤ c && c ≤ '9' then some (c.toNat - '0'.toNat)
  else if 'a' ≤ c && c ≤ 'f' then some (c.toNat - 'a'.toNat + 10)
  else if 'A' ≤ c && c ≤ 'F' then some (c.toNat - 'A'.toNat + 10)
  else none

/-- A digit has the value that it was written for. -/
theorem value?_digit {n : Nat} (h : n < 16) : value? (digit n) = some n := by
  have hall : ∀ m : Fin 16, value? (digit m) = some m.val := by decide
  exact hall ⟨n, h⟩

/-- The number that digits stand for, the first one being the highest. -/
def number? (ds : List Char) : Option Nat := ds.foldlM (fun n c => (value? c).map (n * 16 + ·)) 0

/-- The digits of bytes. -/
def encode : List UInt8 → List Char
  | [] => []
  | b :: bs => digit (b.toNat / 16) :: digit (b.toNat % 16) :: encode bs

/-- The bytes that digits stand for. -/
def decode : List Char → Option (List UInt8)
  | [] => some []
  | [_] => none
  | c :: d :: ds => do
    let high ← value? c
    let low ← value? d
    return .ofNat (high * 16 + low) :: (← decode ds)

/-- Bytes are read back. -/
theorem decode_encode (bs : List UInt8) : decode (encode bs) = some bs := by
  induction bs with
  | nil => rfl
  | cons b bs ih =>
    have hb := b.toNat_lt
    simp only [encode, decode, value?_digit (show b.toNat / 16 < 16 by omega),
      value?_digit (show b.toNat % 16 < 16 by omega), ih]
    have e : b.toNat / 16 * 16 + b.toNat % 16 = b.toNat := by omega
    exact congrArg (fun x => some (x :: bs)) (by rw [e, UInt8.ofNat_toNat])

end CloudRoster.Text.Hex
