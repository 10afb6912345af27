import SchemaGraph.Text.Basic

set_option autoImplicit false

/-! # Punycode

The encoding of a label in ASCII (RFC 3492): the ASCII characters come first, then the others
in increasing order, each as the distance from the one before, written in digits of base 36
whose thresholds adapt to the distances seen so far.
-/

namespace SchemaGraph

namespace Punycode

/-- The digit of a value below 36: letters first, then figures. -/
def digit (d : Nat) : Char :=
  if d < 26 then Char.ofNat ('a'.toNat + d) else Char.ofNat ('0'.toNat + (d - 26))

def digitValue? (c : Char) : Option Nat :=
  if Ascii.isDigit c then some (c.toNat - '0'.toNat + 26)
  else if Ascii.isLower c then some (c.toNat - 'a'.toNat)
  else if Ascii.isUpper c then some (c.toNat - 'A'.toNat)
  else none

/-- The threshold of the digit at position `k`. -/
def threshold (k bias : Nat) : Nat :=
  if k ≤ bias then 1 else if bias + 26 ≤ k then 26 else k - bias

theorem threshold_pos (k bias : Nat) : 1 ≤ threshold k bias := by
  unfold threshold
  split
  · omega
  · split <;> omega

/-- Divide a distance by 35 until it is small, counting 36 for each division. -/
def shrink (delta k : Nat) : Nat × Nat :=
  if 455 < delta then shrink (delta / 35) (k + 36) else (delta, k)
  termination_by delta
  decreasing_by omega

/-- The next bias. -/
def adapt (delta points : Nat) (first : Bool) : Nat :=
  let delta := if first then delta / 700 else delta / 2
  let (delta, k) := shrink (delta + delta / points) 0
  k + 36 * delta / (delta + 38)

/-- The digits of a distance. -/
def distanceDigits (bias k distance : Nat) : List Char :=
  let t := threshold k bias
  if distance < t then [digit distance]
  else digit (t + (distance - t) % (36 - t)) ::
    distanceDigits bias (k + 36) ((distance - t) / (36 - t))
  termination_by distance
  decreasing_by
    have := threshold_pos k bias
    have := Nat.div_le_self (distance - threshold k bias) (36 - threshold k bias)
    omega

/-- What encoding has written and where it stands. -/
structure Progress where
  written : List Char
  delta : Nat
  bias : Nat
  handled : Nat

/-- Go past one character of the label while the code point `m` is being written. -/
def pass (basic m : Nat) (p : Progress) (c : Char) : Progress :=
  if c.toNat < m then { p with delta := p.delta + 1 }
  else if c.toNat == m then
    { written := p.written ++ distanceDigits p.bias 36 p.delta
      delta := 0
      bias := adapt p.delta (p.handled + 1) (p.handled == basic)
      handled := p.handled + 1 }
  else p

/-- Write the code points of the list, which is increasing, from the code point `n` on. -/
def encodeFrom (label : List Char) (basic : Nat) : Nat → List Nat → Progress → Progress
  | _, [], p => p
  | n, m :: more, p =>
    let p := { p with delta := p.delta + (m - n) * (p.handled + 1) }
    let p := label.foldl (pass basic m) p
    encodeFrom label basic (m + 1) more { p with delta := p.delta + 1 }

/-- The encoding of a label. -/
def encode (label : List Char) : List Char :=
  let basic := label.filter fun c => c.toNat < 128
  let others := ((label.map Char.toNat).filter fun n => 128 ≤ n).eraseDups.mergeSort
    fun a b => decide (a ≤ b)
  let start : Progress := ⟨[], 0, 72, basic.length⟩
  basic ++ (if basic.isEmpty then [] else ['-']) ++
    (encodeFrom label basic.length 128 others start).written

/-- Read a distance: its value, added to `i`, and the rest. -/
def readDistance? (bias k weight i : Nat) : List Char → Option (Nat × List Char)
  | [] => none
  | c :: rest => do
    let d ← digitValue? c
    let t := threshold k bias
    if d < t then some (i + d * weight, rest)
    else readDistance? bias (k + 36) (weight * (36 - t)) (i + d * weight) rest

/-- Insert the code points whose distances follow. `steps` bounds their number. -/
def decodeFrom? (steps n i bias : Nat) (first : Bool) (done : List Char) (rest : List Char) :
    Option (List Char) :=
  match steps, rest with
  | _, [] => some done
  | 0, _ => none
  | steps + 1, rest => do
    let (next, rest) ← readDistance? bias 36 1 i rest
    let points := done.length + 1
    let code := n + next / points
    if code.isValidChar then
      let place := next % points
      let done := done.take place ++ Char.ofNat code :: done.drop place
      decodeFrom? steps code (place + 1) (adapt (next - i) points first) false done rest
    else none

/-- The label an encoding stands for. -/
def decode? (text : List Char) : Option (List Char) :=
  let (basic, rest) := (cutAtLast? '-' text).getD ([], text)
  if basic.all fun c => c.toNat < 128 then
    decodeFrom? rest.length 128 0 72 true basic rest
  else none

end Punycode

end SchemaGraph
