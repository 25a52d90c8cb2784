import ContractAbi.Bytes.Utf8

/-!
# Big-endian numbers

A byte string stands for a magnitude (base 256, most significant byte first) or
for a signed number in two's complement.  Every number has one minimal form in
either reading; zero is the empty string in both.
-/

namespace ContractAbi.BigEndian

/-- The number whose base-256 digits are the bytes, most significant first. -/
def magnitude (bytes : Bytes) : Nat :=
  bytes.foldl (fun value byte => value * 256 + byte.toNat) 0

/-- The last `width` base-256 digits of a number. -/
def ofWidth : Nat → Nat → Bytes
  | 0, _ => []
  | width + 1, value => ofWidth width (value / 256) ++ [UInt8.ofNat (value % 256)]

/-- The first number that does not fit so many bytes. -/
def bound (width : Nat) : Nat := Nat.pow 256 width

/-- Number of base-256 digits; zero has none. -/
def byteLength (value : Nat) : Nat :=
  if value = 0 then 0 else value.log2 / 8 + 1

def ofNat (value : Nat) : Bytes :=
  ofWidth (byteLength value) value

/-- The digits that are left without the zeros in front; none are left of zero. -/
def trimMagnitude (bytes : Bytes) : Bytes :=
  bytes.dropWhile (· == 0)

/-- The signed number whose two's-complement form the bytes are. -/
def signed (bytes : Bytes) : Int :=
  match bytes with
  | [] => 0
  | first :: _ =>
    if first < 0x80 then magnitude bytes
    else (magnitude bytes : Int) - bound bytes.length

/-- Length of the shortest two's-complement form: one bit for the sign beside
those of the value, or of its complement if it is negative. -/
def signedByteLength (value : Int) : Nat :=
  match value with
  | .ofNat value => if value = 0 then 0 else (value.log2 + 1) / 8 + 1
  | .negSucc complement => (complement.log2 + 1) / 8 + 1

/-- The shortest two's-complement form of a number. -/
def ofInt (value : Int) : Bytes :=
  let width := signedByteLength value
  ofWidth width (value % bound width).toNat

theorem bound_succ (width : Nat) : bound (width + 1) = 256 * bound width :=
  Nat.mul_comm (bound width) 256

theorem length_ofWidth (width value : Nat) : (ofWidth width value).length = width := by
  induction width generalizing value with
  | zero => rfl
  | succ width ih => simp [ofWidth, ih]

theorem magnitude_append_singleton (bytes : Bytes) (byte : UInt8) :
    magnitude (bytes ++ [byte]) = magnitude bytes * 256 + byte.toNat := by
  simp [magnitude]

/-- A fixed width keeps the value modulo the numbers that fit. -/
theorem magnitude_ofWidth (width value : Nat) :
    magnitude (ofWidth width value) = value % bound width := by
  induction width generalizing value with
  | zero => simp [ofWidth, magnitude, bound, Nat.mod_one]
  | succ width ih =>
      rw [ofWidth, magnitude_append_singleton, ih, bound_succ, Nat.mod_mul]
      simp [Nat.add_comm, Nat.mul_comm]

end ContractAbi.BigEndian
