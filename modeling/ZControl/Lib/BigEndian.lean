import Mathlib.Tactic.Ring
import Mathlib.Tactic.Positivity

/-!
# Big-endian byte strings

`toNat` reads a byte string as a number, most significant byte first; `ofNat n` writes the low
`n` bytes of a number. The two are inverse to each other on byte strings of length `n`, which is
the only fact a fixed-width wire format needs.
-/

namespace BigEndian

/-- The number a byte string denotes, most significant byte first. -/
def toNat (bs : List UInt8) : Nat :=
  bs.foldl (fun acc b => acc * 256 + b.toNat) 0

/-- The low `n` bytes of `x`, most significant byte first. -/
def ofNat : Nat → Nat → List UInt8
  | 0,     _ => []
  | n + 1, x => UInt8.ofNat (x / 256 ^ n) :: ofNat n x

@[simp] theorem length_ofNat (n x : Nat) : (ofNat n x).length = n := by
  induction n with
  | zero => rfl
  | succ n ih => simp [ofNat, ih]

@[simp] theorem toNat_nil : toNat [] = 0 := rfl

/-- The accumulator of the fold carries the bytes already read, shifted past those to come. -/
theorem foldl_eq (bs : List UInt8) (acc : Nat) :
    bs.foldl (fun acc b => acc * 256 + b.toNat) acc = acc * 256 ^ bs.length + toNat bs := by
  induction bs generalizing acc with
  | nil => simp [toNat]
  | cons b bs ih =>
      simp only [toNat, List.foldl_cons, List.length_cons]
      rw [ih, ih (0 * 256 + b.toNat)]
      ring

theorem toNat_cons (b : UInt8) (bs : List UInt8) :
    toNat (b :: bs) = b.toNat * 256 ^ bs.length + toNat bs := by
  have h := foldl_eq bs (0 * 256 + b.toNat)
  simpa [toNat] using h

theorem toNat_lt (bs : List UInt8) : toNat bs < 256 ^ bs.length := by
  induction bs with
  | nil => simp
  | cons b bs ih =>
      have hb : b.toNat ≤ 255 := Nat.le_of_lt_succ b.toNat_lt
      have hmul : b.toNat * 256 ^ bs.length ≤ 255 * 256 ^ bs.length := Nat.mul_le_mul_right _ hb
      rw [toNat_cons, List.length_cons, Nat.pow_succ]
      omega

/-- Writing keeps exactly the low `n` bytes. -/
theorem toNat_ofNat (n x : Nat) : toNat (ofNat n x) = x % 256 ^ n := by
  induction n with
  | zero => simp [ofNat, Nat.mod_one]
  | succ n ih =>
      have hbyte : (UInt8.ofNat (x / 256 ^ n)).toNat = x / 256 ^ n % 256 := by simp
      rw [ofNat, toNat_cons, length_ofNat, ih, hbyte, Nat.pow_succ, Nat.mod_mul]
      ring

theorem ofNat_mod (n x : Nat) : ofNat n (x % 256 ^ n) = ofNat n x := by
  suffices h : ∀ m, n ≤ m → ofNat n (x % 256 ^ m) = ofNat n x from h n (Nat.le_refl n)
  induction n with
  | zero => intro _ _; rfl
  | succ n ih =>
      intro m hm
      have hsplit : 256 ^ m = 256 ^ n * 256 ^ (m - n) := by
        rw [← Nat.pow_add]; congr 1; omega
      have hdvd : 256 ∣ 256 ^ (m - n) := dvd_pow_self 256 (by omega)
      have hbyte : UInt8.ofNat (x % 256 ^ m / 256 ^ n) = UInt8.ofNat (x / 256 ^ n) := by
        apply UInt8.toNat_inj.mp
        rw [UInt8.toNat_ofNat', UInt8.toNat_ofNat', hsplit, Nat.mod_mul_right_div_self]
        exact Nat.mod_mod_of_dvd _ hdvd
      rw [ofNat, ofNat, hbyte, ih m (by omega)]

/-- Reading loses nothing: the bytes are recovered from the number and the length. -/
theorem ofNat_toNat (bs : List UInt8) : ofNat bs.length (toNat bs) = bs := by
  induction bs with
  | nil => rfl
  | cons b bs ih =>
      have hlt := toNat_lt bs
      have hpos : 0 < 256 ^ bs.length := Nat.lt_of_le_of_lt (Nat.zero_le _) hlt
      have hdiv : toNat (b :: bs) / 256 ^ bs.length = b.toNat := by
        rw [toNat_cons, Nat.add_comm, Nat.add_mul_div_right _ _ hpos, Nat.div_eq_of_lt hlt,
          Nat.zero_add]
      have hmod : toNat (b :: bs) % 256 ^ bs.length = toNat bs := by
        rw [toNat_cons, Nat.add_comm, Nat.add_mul_mod_self_right, Nat.mod_eq_of_lt hlt]
      rw [List.length_cons, ofNat, hdiv, UInt8.ofNat_toNat, ← ofNat_mod, hmod, ih]

/-- On byte strings of one length, `toNat` is injective. -/
theorem toNat_inj {as bs : List UInt8} (hlen : as.length = bs.length)
    (h : toNat as = toNat bs) : as = bs := by
  rw [← ofNat_toNat as, ← ofNat_toNat bs, hlen, h]

end BigEndian
