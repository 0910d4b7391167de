/-!
# Runs of case pairs

A case mapping of the Unicode character database moves most letters in blocks: the letters `first`, `first + step`,
…, `last` go to `target`, `target + step`, …. A `CaseRun` is one such block and `CaseRun.image?` the map it stands
for; `caseImage?` looks a letter up in a table of runs.
-/

namespace Tabular.Text

/-- Letters at equal distances from `first` to `last`, moved as a block so that `first` goes to `target`. -/
structure CaseRun where
  first : Nat
  last : Nat
  step : Nat
  target : Nat
deriving DecidableEq, Repr

/-- Whether the code point is one of the letters of the run. -/
def CaseRun.covers (r : CaseRun) (n : Nat) : Bool :=
  r.first ≤ n && n ≤ r.last && (n - r.first) % r.step == 0

/-- The code point to which the run moves `n`, if it covers it. -/
def CaseRun.image? (r : CaseRun) (n : Nat) : Option Nat :=
  if r.covers n then some (r.target + (n - r.first)) else none

/-- The code point to which the first run that covers `n` moves it. -/
def caseImage? (runs : List CaseRun) (n : Nat) : Option Nat :=
  runs.findSome? (·.image? n)

/-- The image of a character under a table of runs; a character outside all runs stays as it is. -/
def caseImage (runs : List CaseRun) (c : Char) : Char :=
  match caseImage? runs c.toNat with
  | some n => Char.ofNat n
  | none => c

end Tabular.Text
