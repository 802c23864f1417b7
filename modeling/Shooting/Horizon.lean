/-!
# Values along a horizon

The stages of a problem may have different numbers of controls. `Horizon F G nus` holds one value
of `F nu` for each running stage, in order, where `nus` lists their numbers of controls, and one
value of `G` for the end. Models, stage data, trajectories, gaps, gains and value functions are all
such sequences over one `nus`, so that walking along several of them together never misaligns.
-/

namespace Shooting

/-- One value for each running stage and one for the end. -/
inductive Horizon (F : Nat → Type) (G : Type) : List Nat → Type where
  | last (g : G) : Horizon F G []
  | stage {nu : Nat} {nus : List Nat} (f : F nu) (rest : Horizon F G nus) : Horizon F G (nu :: nus)

namespace Horizon

variable {F F' F'' : Nat → Type} {G G' G'' : Type} {β : Type} {nus : List Nat}

/-- The value at the end. -/
def final : {nus : List Nat} → Horizon F G nus → G
  | _, last g => g
  | _, stage _ rest => rest.final

/-- Applies one function to the values of the stages and one to the value at the end. -/
def map (f : ∀ {nu}, F nu → F' nu) (g : G → G') : {nus : List Nat} → Horizon F G nus →
    Horizon F' G' nus
  | _, last a => last (g a)
  | _, stage a rest => stage (f a) (rest.map f g)

/-- Combines two sequences position by position. -/
def zipWith (f : ∀ {nu}, F nu → F' nu → F'' nu) (g : G → G' → G'') : {nus : List Nat} →
    Horizon F G nus → Horizon F' G' nus → Horizon F'' G'' nus
  | _, last a, last b => last (g a b)
  | _, stage a as, stage b bs => stage (f a b) (as.zipWith f g bs)

/-- Collects the values of the running stages from the first to the last. -/
def foldl (f : ∀ {nu}, β → F nu → β) : {nus : List Nat} → β → Horizon F G nus → β
  | _, acc, last _ => acc
  | _, acc, stage a rest => rest.foldl f (f acc a)

/-- The values of the running stages as a list. -/
def running (f : ∀ {nu}, F nu → β) : {nus : List Nat} → Horizon F G nus → List β
  | _, last _ => []
  | _, stage a rest => f a :: rest.running f

/-- All values as a list. -/
def toList (f : ∀ {nu}, F nu → β) (g : G → β) (h : Horizon F G nus) : List β :=
  h.running f ++ [g h.final]

/-- What the first value says, be it a stage or the end. -/
def first (f : ∀ {nu}, F nu → β) (g : G → β) : {nus : List Nat} → Horizon F G nus → β
  | _, last a => g a
  | _, stage a _ => f a

/-- The sequence that holds, at each stage, a value depending on its number of controls. -/
def replicate (f : (nu : Nat) → F nu) (g : G) : (nus : List Nat) → Horizon F G nus
  | [] => last g
  | nu :: nus => stage (f nu) (replicate f g nus)

/-- Replaces the value of running stage `t`; `f` also gives an answer. There is none, and nothing
changes, when `t` is outside the horizon. -/
def visit (f : ∀ {nu}, F nu → F nu × β) : {nus : List Nat} → Nat → Horizon F G nus →
    Horizon F G nus × Option β
  | _, _, last g => (last g, none)
  | _, 0, stage a rest => (stage (f a).1 rest, some (f a).2)
  | _, t + 1, stage a rest =>
    let (rest', answer) := rest.visit f t
    (stage a rest', answer)

/-- Replaces the value at the end. -/
def setFinal (g : G) : {nus : List Nat} → Horizon F G nus → Horizon F G nus
  | _, last _ => last g
  | _, stage a rest => stage a (rest.setFinal g)

@[simp] theorem length_running (f : ∀ {nu}, F nu → β) (h : Horizon F G nus) :
    (h.running f).length = nus.length := by
  induction h with
  | last => rfl
  | stage a rest ih => simp [running, ih]

@[simp] theorem length_toList (f : ∀ {nu}, F nu → β) (g : G → β) (h : Horizon F G nus) :
    (h.toList f g).length = nus.length + 1 := by
  simp [toList]

end Horizon

end Shooting
