/-! # Runs of characters

  A property of characters as the **runs** of code points that have it. A run is given by its first
  and its last code point.
-/

namespace PlugWatch.Text

/-- Runs of code points, ascending and apart. -/
abbrev Runs := List (Nat × Nat)

/-- Whether a character lies in one of the runs. -/
def Runs.has (rs : Runs) (c : Char) : Bool :=
  rs.any fun (first, last) => first ≤ c.toNat && c.toNat ≤ last

end PlugWatch.Text
