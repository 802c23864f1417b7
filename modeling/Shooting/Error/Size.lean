/-!
# Sizes that do not fit

One constructor per way in which a vector, a matrix or a list of them can have the wrong size, with
the sizes involved, and one function for the wording.
-/

namespace Shooting

/-- Who expected a certain size: a model, by its name, or a stage, by its index. -/
inductive SizeOwner where
  | model (name : String)
  | stage (t : Nat)
  deriving DecidableEq, Repr

/-- The owner as it opens a message. -/
def SizeOwner.describe : SizeOwner → String
  | model name => name
  | stage t => "stage " ++ toString t

/-- What has the wrong size. -/
inductive SizeFault where
  /-- A state given to a model or a stage. -/
  | state (owner : SizeOwner) (actual expected : Nat)
  /-- A control given to a model or a stage. -/
  | control (owner : SizeOwner) (actual expected : Nat)
  /-- A coefficient matrix of a model. -/
  | matrix (name : String) (rows cols expectedRows expectedCols : Nat)
  | drift (actual expected : Nat)
  | linearCost (state control expectedState expectedControl : Nat)
  /-- Two consecutive stages whose state spaces differ. -/
  | neighbours (t nx ndx nextNx nextNdx : Nat)
  | initialState (actual expected : Nat)
  /-- The number of states of a trajectory. -/
  | states (expected actual : Nat)
  /-- The number of states for a warm start, which may be too few but not too many. -/
  | leadingStates (expected actual : Nat)
  /-- The number of controls of a trajectory. -/
  | controls (expected actual : Nat)
  /-- A trajectory that has not one state more than controls. -/
  | trajectory (states controls : Nat)
  /-- A size fault of a model outside this library, in its own words. -/
  | note (text : String)
  deriving DecidableEq, Repr

namespace SizeFault

private def entries (what : String) (actual expected : Nat) : String :=
  what ++ " has " ++ toString actual ++ " entries, expected " ++ toString expected

private def shape (m n : Nat) : String := toString m ++ "x" ++ toString n

private def count (what : String) (expected actual : Nat) : String :=
  "expected " ++ toString expected ++ " " ++ what ++ ", got " ++ toString actual

/-- The fault in words. -/
def describe : SizeFault → String
  | state owner a e => owner.describe ++ ": " ++ entries "state" a e
  | control owner a e => owner.describe ++ ": " ++ entries "control" a e
  | matrix name m n em en => name ++ " is " ++ shape m n ++ ", expected " ++ shape em en
  | drift a e => entries "drift" a e
  | linearCost x u ex eu =>
    "linear cost terms have sizes (" ++ toString x ++ ", " ++ toString u ++ "), expected (" ++
      toString ex ++ ", " ++ toString eu ++ ")"
  | neighbours t nx ndx nx' ndx' =>
    "stage " ++ toString t ++ " has state (nx " ++ toString nx ++ ", ndx " ++ toString ndx ++
      ") but stage " ++ toString (t + 1) ++ " has (nx " ++ toString nx' ++ ", ndx " ++
      toString ndx' ++ ")"
  | initialState a e =>
    "initial state has " ++ toString a ++ " entries, first stage expects " ++ toString e
  | states e a => count "states" e a
  | leadingStates e a =>
    "expected at least " ++ toString e ++ " states, got " ++ toString a
  | controls e a => count "controls" e a
  | trajectory x u =>
    "trajectory has " ++ toString x ++ " states and " ++ toString u ++ " controls"
  | note text => text

end SizeFault

end Shooting
