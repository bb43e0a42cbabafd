/-!
# Sources of random values

A source hands out scalars from the unit interval and integers from a range. Drawing may fail, when
a script is at its end or when a redraw goes on for longer than the caller lets it. A script hands
out what it was given.
-/

namespace RootFinding

/-- States `σ` from which scalars `K` and integers are drawn. -/
class RandomSource (σ K : Type) where
  /-- A scalar from zero up to, but not including, one. -/
  uniform : σ → Option (K × σ)
  /-- An integer from `low` up to, but not including, `high`. -/
  integer : (low high : Nat) → σ → Option (Nat × σ)

/-- How often something is drawn again where nothing else is said. -/
def usualDraws : Nat := 100000

/-- A computation that draws from a source. -/
abbrev Draw (σ α : Type) : Type :=
  StateT σ Option α

namespace Draw

variable {σ K : Type} [RandomSource σ K]

/-- Draw a scalar. -/
def uniform : Draw σ K :=
  fun source => RandomSource.uniform source

variable (K) in
/-- Draw an integer from `low` up to, but not including, `high`. -/
def integer (low high : Nat) : Draw σ Nat :=
  fun source => RandomSource.integer K low high source

/-- Draw `n` scalars, the first entry first. -/
def uniformVector : (n : Nat) → Draw σ (Vector K n)
  | 0 => pure #v[]
  | n + 1 => do
      let entries ← uniformVector n
      return entries.push (← uniform)

end Draw

/-- One entry of a script: what a scalar draw and what an integer draw takes it for. -/
structure ScriptEntry (K : Type) where
  scalar : K
  count : Nat
  deriving Repr, DecidableEq

instance {K : Type} : RandomSource (List (ScriptEntry K)) K where
  uniform
    | [] => none
    | entry :: rest => some (entry.scalar, rest)
  integer _ _
    | [] => none
    | entry :: rest => some (entry.count, rest)

end RootFinding
