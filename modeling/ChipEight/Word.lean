namespace ChipEight

abbrev Byte := UInt8

abbrev Nibble := Fin 16

abbrev Address := Fin 4096

abbrev Word := UInt16

/-- Numbers stand for digits and addresses modulo their range. -/
def Nibble.ofNat (n : Nat) : Nibble :=
  Fin.ofNat 16 n

def Address.ofNat (n : Nat) : Address :=
  Fin.ofNat 4096 n

instance (n : Nat) : OfNat Nibble n := ⟨Fin.ofNat 16 n⟩

instance (n : Nat) : OfNat Address n := ⟨Fin.ofNat 4096 n⟩

namespace Word

def ofInt (n : Int) : Word :=
  UInt16.ofInt n

def ofBytes (high low : Byte) : Word :=
  .ofNat (256 * high.toNat + low.toNat)

/-- The hexadecimal digits of a word, written `0xKXYN` from the most significant. -/
def kind (w : Word) : Nibble :=
  ⟨w.toNat / 4096 % 16, Nat.mod_lt _ (by decide)⟩

def x (w : Word) : Nibble :=
  ⟨w.toNat / 256 % 16, Nat.mod_lt _ (by decide)⟩

def y (w : Word) : Nibble :=
  ⟨w.toNat / 16 % 16, Nat.mod_lt _ (by decide)⟩

def n (w : Word) : Nibble :=
  ⟨w.toNat % 16, Nat.mod_lt _ (by decide)⟩

def nn (w : Word) : Byte :=
  .ofNat w.toNat

def nnn (w : Word) : Address :=
  ⟨w.toNat % 4096, Nat.mod_lt _ (by decide)⟩

def ofNibbles (k x y n : Nibble) : Word :=
  .ofNat (4096 * k + 256 * x + 16 * y + n)

theorem toNat_ofBytes (high low : Byte) :
    (ofBytes high low).toNat = 256 * high.toNat + low.toNat := by
  have := high.toNat_lt
  have := low.toNat_lt
  rw [ofBytes, UInt16.toNat_ofNat', Nat.mod_eq_of_lt (by omega)]

theorem toNat_ofNibbles (k x y n : Nibble) :
    (ofNibbles k x y n).toNat = 4096 * k + 256 * x + 16 * y + n := by
  rw [ofNibbles, UInt16.toNat_ofNat', Nat.mod_eq_of_lt (by omega)]

theorem kind_ofNibbles (k x y n : Nibble) : (ofNibbles k x y n).kind = k := by
  ext
  simp only [kind, toNat_ofNibbles]
  omega

theorem x_ofNibbles (k x y n : Nibble) : (ofNibbles k x y n).x = x := by
  ext
  simp only [Word.x, toNat_ofNibbles]
  omega

theorem y_ofNibbles (k x y n : Nibble) : (ofNibbles k x y n).y = y := by
  ext
  simp only [Word.y, toNat_ofNibbles]
  omega

theorem n_ofNibbles (k x y n : Nibble) : (ofNibbles k x y n).n = n := by
  ext
  simp only [Word.n, toNat_ofNibbles]
  omega

theorem ofNibbles_digits (w : Word) : ofNibbles w.kind w.x w.y w.n = w := by
  have := w.toNat_lt
  apply UInt16.toNat_inj.mp
  simp only [toNat_ofNibbles, kind, x, y, n]
  omega

end Word

end ChipEight
