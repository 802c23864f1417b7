import Shooting.Problem.Evaluation

/-!
# What models give along a path

`Problem.evaluate` and its like write into the stages what the models say; this module states what
they say without writing anything. `Models.evaluations` and `Models.expansions` are the answers of
the models at the knots of a path, and from them come the cost, the predicted states and the gaps
of a path (`Problem.costAlong`, `Problem.predictionsAlong`, `Problem.gapsAlong`).

A problem stores one evaluation and one expansion for each stage. Main statements:

* evaluating along a path stores exactly the evaluations along it and leaves the expansions, and
  expanding does the converse (`storedEvaluations_evaluate`, `storedExpansions_expand`, …);
* total cost and gaps, which are read off what is stored, are those of the path if what is stored
  belongs to it (`Problem.totalCost_eq_costAlong`, `Problem.gaps_eq_gapsAlong`);
* the path of a rollout is the one path with the given controls that follows its own predictions
  (`Problem.isRollout_rollout`).

No law of arithmetic is used.
-/

namespace Shooting

namespace Horizon

variable {F F' F'' F₃ : Nat → Type} {G G' G'' G₃ : Type} {β γ : Type} {nus : List Nat}

theorem map_zipWith (f : ∀ {nu}, F nu → F' nu → F'' nu) (g : G → G' → G'')
    (f' : ∀ {nu}, F'' nu → F₃ nu) (g' : G'' → G₃) :
    ∀ {nus : List Nat} (a : Horizon F G nus) (b : Horizon F' G' nus),
      (a.zipWith f g b).map f' g' = a.zipWith (fun x y => f' (f x y)) (fun x y => g' (g x y)) b
  | _, last _, last _ => rfl
  | _, stage _ as, stage _ bs => congrArg (stage _) (map_zipWith f g f' g' as bs)

theorem zipWith_map_left (f : ∀ {nu}, F nu → F' nu) (g : G → G')
    (f' : ∀ {nu}, F' nu → F'' nu → F₃ nu) (g' : G' → G'' → G₃) :
    ∀ {nus : List Nat} (a : Horizon F G nus) (b : Horizon F'' G'' nus),
      (a.map f g).zipWith f' g' b = a.zipWith (fun x y => f' (f x) y) (fun x y => g' (g x) y) b
  | _, last _, last _ => rfl
  | _, stage _ as, stage _ bs => congrArg (stage _) (zipWith_map_left f g f' g' as bs)

theorem zipWith_fst (f : ∀ {nu}, F nu → F'' nu) (g : G → G'') :
    ∀ {nus : List Nat} (a : Horizon F G nus) (b : Horizon F' G' nus),
      a.zipWith (fun x _ => f x) (fun x _ => g x) b = a.map f g
  | _, last _, last _ => rfl
  | _, stage _ as, stage _ bs => congrArg (stage _) (zipWith_fst f g as bs)

theorem foldl_eq_running (f : ∀ {nu}, F nu → γ) (op : β → γ → β) :
    ∀ {nus : List Nat} (b : β) (a : Horizon F G nus),
      a.foldl (fun acc x => op acc (f x)) b = (a.running f).foldl op b
  | _, _, last _ => rfl
  | _, b, stage x as => foldl_eq_running f op (op b (f x)) as

theorem running_map (f : ∀ {nu}, F nu → F' nu) (g : G → G') (h : ∀ {nu}, F' nu → β) :
    ∀ {nus : List Nat} (a : Horizon F G nus),
      (a.map f g).running h = a.running fun x => h (f x)
  | _, last _ => rfl
  | _, stage _ as => congrArg (_ :: ·) (running_map f g h as)

theorem final_map (f : ∀ {nu}, F nu → F' nu) (g : G → G') :
    ∀ {nus : List Nat} (a : Horizon F G nus), (a.map f g).final = g a.final
  | _, last _ => rfl
  | _, stage _ as => final_map f g as

theorem toList_map (f : ∀ {nu}, F nu → β) (g : G → β) (h : β → γ) :
    ∀ {nus : List Nat} (a : Horizon F G nus),
      (a.toList f g).map h = a.toList (fun x => h (f x)) fun x => h (g x)
  | _, last _ => rfl
  | _, stage _ as => congrArg (_ :: ·) (toList_map f g h as)

end Horizon

variable {α : Type} {s : StateSpace} {nus : List Nat}

/-- The states of a path in order, one more than there are stages. -/
def Path.stateList (path : Path α s nus) : List (Vec α s.nx) := path.toList Knot.state id

/-- The models of the stages of a problem. -/
abbrev Models (α : Type) (s : StateSpace) (nus : List Nat) : Type :=
  Horizon (Model α s) ((nu : Nat) × Model α s nu) nus

/-- An evaluation of every stage. -/
abbrev Evaluations (α : Type) (s : StateSpace) (nus : List Nat) : Type :=
  Horizon (fun _ => Evaluation α s.nx) (Evaluation α s.nx) nus

/-- An expansion of every stage. -/
abbrev Expansions (α : Type) (s : StateSpace) (nus : List Nat) : Type :=
  Horizon (Expansion α s.ndx) ((nu : Nat) × Expansion α s.ndx nu) nus

/-- The model of the last stage with its number of controls. -/
def TerminalStage.anyModel (st : TerminalStage α s) : (nu : Nat) × Model α s nu :=
  ⟨st.nu, st.model⟩

/-- The expansion that the last stage remembers. -/
def TerminalStage.storedExpansion (st : TerminalStage α s) : (nu : Nat) × Expansion α s.ndx nu :=
  ⟨st.nu, st.data.expansion⟩

/-- The models of the stages. -/
def Stages.models (stages : Stages α s nus) : Models α s nus :=
  stages.map Stage.model TerminalStage.anyModel

/-- The evaluations that the stages remember. -/
def Stages.storedEvaluations (stages : Stages α s nus) : Evaluations α s nus :=
  stages.map (fun st => st.data.eval) fun st => st.data.eval

/-- The expansions that the stages remember. -/
def Stages.storedExpansions (stages : Stages α s nus) : Expansions α s nus :=
  stages.map (fun st => st.data.expansion) TerminalStage.storedExpansion

/-- Stages are their models and what they remember. -/
theorem Stages.eq_of_stored : ∀ {nus : List Nat} {a b : Stages α s nus}, a.models = b.models →
    a.storedEvaluations = b.storedEvaluations → a.storedExpansions = b.storedExpansions → a = b
  | _, .last ⟨_, _, ⟨_, _⟩⟩, .last ⟨_, _, ⟨_, _⟩⟩, hmodels, hevals, hexps => by
    cases hmodels
    cases hevals
    cases hexps
    rfl
  | _, .stage ⟨_, ⟨_, _⟩⟩ as, .stage ⟨_, ⟨_, _⟩⟩ bs, hmodels, hevals, hexps => by
    obtain ⟨hmodel, hmodels⟩ := Horizon.stage.inj hmodels
    obtain ⟨heval, hevals⟩ := Horizon.stage.inj hevals
    obtain ⟨hexp, hexps⟩ := Horizon.stage.inj hexps
    have hrest := eq_of_stored hmodels hevals hexps
    cases hmodel
    cases heval
    cases hexp
    exact congrArg (Horizon.stage _) hrest

/-- Two problems that ask the same: they differ at most in what they remember. -/
structure Problem.Same (p q : Problem α s nus) : Prop where
  start : p.start = q.start
  models : p.stages.models = q.stages.models

theorem Problem.Same.refl (p : Problem α s nus) : p.Same p := ⟨rfl, rfl⟩

theorem Problem.Same.trans {p q o : Problem α s nus} (h : p.Same q) (h' : q.Same o) : p.Same o :=
  ⟨h.start.trans h'.start, h.models.trans h'.models⟩

theorem Problem.Same.symm {p q : Problem α s nus} (h : p.Same q) : q.Same p :=
  ⟨h.start.symm, h.models.symm⟩

variable [Scalar α]

/-- What the models say at the knots of a path: the last of them is asked without a control. -/
def Models.evaluations (ms : Models α s nus) (path : Path α s nus) : Evaluations α s nus :=
  ms.zipWith (fun m k => m.evaluate k.state (some k.control)) (fun m x => m.2.evaluate x none) path

/-- The derivatives that the models give at the knots of a path. -/
def Models.expansions (ms : Models α s nus) (path : Path α s nus) : Expansions α s nus :=
  ms.zipWith (fun m k => m.expand k.state (some k.control)) (fun m x => ⟨m.1, m.2.expand x none⟩)
    path

/-- The sum of the costs: running stages from the first to the last, then the end. -/
def Evaluations.totalCost (es : Evaluations α s nus) : α :=
  (es.running Evaluation.cost).foldl (· + ·) 0 + es.final.cost

/-! ## Evaluating and expanding stages -/

namespace Stages

@[simp] theorem models_evaluate (stages : Stages α s nus) (path : Path α s nus) :
    (stages.evaluate path).models = stages.models := by
  unfold models evaluate
  rw [Horizon.map_zipWith]
  exact Horizon.zipWith_fst Stage.model TerminalStage.anyModel stages path

@[simp] theorem models_expand (stages : Stages α s nus) (path : Path α s nus) :
    (stages.expand path).models = stages.models := by
  unfold models expand
  rw [Horizon.map_zipWith]
  exact Horizon.zipWith_fst Stage.model TerminalStage.anyModel stages path

@[simp] theorem storedEvaluations_evaluate (stages : Stages α s nus) (path : Path α s nus) :
    (stages.evaluate path).storedEvaluations = stages.models.evaluations path := by
  unfold storedEvaluations evaluate Models.evaluations models
  rw [Horizon.map_zipWith, Horizon.zipWith_map_left]
  rfl

@[simp] theorem storedExpansions_expand (stages : Stages α s nus) (path : Path α s nus) :
    (stages.expand path).storedExpansions = stages.models.expansions path := by
  unfold storedExpansions expand Models.expansions models
  rw [Horizon.map_zipWith, Horizon.zipWith_map_left]
  rfl

/-- Expanding leaves the stored evaluations. -/
@[simp] theorem storedEvaluations_expand (stages : Stages α s nus) (path : Path α s nus) :
    (stages.expand path).storedEvaluations = stages.storedEvaluations := by
  unfold storedEvaluations expand
  rw [Horizon.map_zipWith]
  exact Horizon.zipWith_fst (fun st => st.data.eval) (fun st => st.data.eval) stages path

/-- Evaluating leaves the stored expansions. -/
@[simp] theorem storedExpansions_evaluate (stages : Stages α s nus) (path : Path α s nus) :
    (stages.evaluate path).storedExpansions = stages.storedExpansions := by
  unfold storedExpansions evaluate
  rw [Horizon.map_zipWith]
  exact Horizon.zipWith_fst (fun st => st.data.expansion) TerminalStage.storedExpansion stages path

theorem totalCost_eq (stages : Stages α s nus) :
    stages.totalCost = stages.storedEvaluations.totalCost := by
  unfold totalCost Evaluations.totalCost storedEvaluations
  rw [Horizon.running_map, Horizon.final_map]
  exact congrArg (· + stages.final.data.eval.cost)
    (Horizon.foldl_eq_running (fun st => st.data.eval.cost) (· + ·) 0 stages)

/-- The gaps are the differences from the states of the path to the stored predictions. -/
theorem toList_gapsFrom : ∀ {nus : List Nat} (predicted : Vec α s.nx) (stages : Stages α s nus)
    (path : Path α s nus),
    (gapsFrom predicted stages path).toList id id =
      List.zipWith s.diff path.stateList
        (predicted :: stages.storedEvaluations.running Evaluation.next)
  | _, _, .last _, .last _ => rfl
  | _, _, .stage st rest, .stage _ ks =>
    congrArg (_ :: ·) (toList_gapsFrom st.data.eval.next rest ks)

/-- What the gaps are depends on the stored predictions alone. -/
theorem gapsFrom_congr : ∀ {nus : List Nat} {a b : Stages α s nus} (predicted : Vec α s.nx)
    (path : Path α s nus), a.storedEvaluations = b.storedEvaluations →
    gapsFrom predicted a path = gapsFrom predicted b path
  | _, .last _, .last _, _, .last _, _ => rfl
  | _, .stage st as, .stage st' bs, _, .stage _ ks, h => by
    obtain ⟨heval, hevals⟩ := Horizon.stage.inj h
    have hnext : st.data.eval.next = st'.data.eval.next := congrArg Evaluation.next heval
    have hrest := gapsFrom_congr st.data.eval.next ks hevals
    show Horizon.stage _ (gapsFrom st.data.eval.next as ks) =
      Horizon.stage _ (gapsFrom st'.data.eval.next bs ks)
    rw [hrest, hnext]

/-! ## Rollouts -/

@[simp] theorem models_rolloutFrom : ∀ {nus : List Nat} (x : Vec α s.nx) (stages : Stages α s nus)
    (us : Controls α nus), (rolloutFrom x stages us).1.models = stages.models
  | _, _, .last _, .last () => rfl
  | _, _, .stage _ rest, .stage _ us => congrArg (Horizon.stage _) (models_rolloutFrom _ rest us)

@[simp] theorem storedExpansions_rolloutFrom : ∀ {nus : List Nat} (x : Vec α s.nx)
    (stages : Stages α s nus) (us : Controls α nus),
    (rolloutFrom x stages us).1.storedExpansions = stages.storedExpansions
  | _, _, .last _, .last () => rfl
  | _, _, .stage _ rest, .stage _ us =>
    congrArg (Horizon.stage _) (storedExpansions_rolloutFrom _ rest us)

/-- The path of a rollout goes where its own evaluations lead. -/
theorem stateList_rolloutFrom : ∀ {nus : List Nat} (x : Vec α s.nx) (stages : Stages α s nus)
    (us : Controls α nus),
    (rolloutFrom x stages us).2.stateList =
      x :: (stages.models.evaluations (rolloutFrom x stages us).2).running Evaluation.next
  | _, _, .last _, .last () => rfl
  | _, x, .stage _ rest, .stage _ us => congrArg (x :: ·) (stateList_rolloutFrom _ rest us)

/-- Where a rollout leads depends on the models alone. -/
theorem rolloutFrom_congr : ∀ {nus : List Nat} {a b : Stages α s nus} (x : Vec α s.nx)
    (us : Controls α nus), a.models = b.models → (rolloutFrom x a us).2 = (rolloutFrom x b us).2
  | _, .last _, .last _, _, .last (), _ => rfl
  | _, .stage st as, .stage st' bs, x, .stage u us, h => by
    obtain ⟨hmodel, hmodels⟩ := Horizon.stage.inj h
    have hnext : (st.evaluate x u).data.eval.next = (st'.evaluate x u).data.eval.next :=
      congrArg (fun m : Model α s _ => (m.evaluate x (some u)).next) hmodel
    have hrest := rolloutFrom_congr (st.evaluate x u).data.eval.next us hmodels
    show Horizon.stage _ (rolloutFrom (st.evaluate x u).data.eval.next as us).2 =
      Horizon.stage _ (rolloutFrom (st'.evaluate x u).data.eval.next bs us).2
    rw [hrest, hnext]

/-- The path of a rollout has the controls it was given. -/
theorem controls_rolloutFrom : ∀ {nus : List Nat} (x : Vec α s.nx) (stages : Stages α s nus)
    (us : Controls α nus),
    (rolloutFrom x stages us).2.toTrajectory.controls = us.running Vec.toList
  | _, _, .last _, .last () => rfl
  | _, _, .stage _ rest, .stage u us => congrArg (u.toList :: ·) (controls_rolloutFrom _ rest us)

end Stages

/-! ## Problems -/

namespace Problem

/-- The states that the models of a problem predict along a path: the initial state for the first,
and for every other one what its predecessor leads to. -/
def predictionsAlong (p : Problem α s nus) (path : Path α s nus) : List (Vec α s.nx) :=
  p.start :: (p.stages.models.evaluations path).running Evaluation.next

/-- The cost that the models of a problem charge for a path. -/
def costAlong (p : Problem α s nus) (path : Path α s nus) : α :=
  (p.stages.models.evaluations path).totalCost

/-- The tangent vectors from the states of a path to those predicted along it. -/
def gapsAlong (p : Problem α s nus) (path : Path α s nus) : List (Vec α s.ndx) :=
  List.zipWith s.diff path.stateList (p.predictionsAlong path)

/-- Whether a path starts at the initial state and goes on as the models say. -/
def IsRollout (p : Problem α s nus) (path : Path α s nus) : Prop :=
  path.stateList = p.predictionsAlong path

namespace Same

variable {p q : Problem α s nus}

theorem predictionsAlong (h : p.Same q) (path : Path α s nus) :
    p.predictionsAlong path = q.predictionsAlong path := by
  unfold Problem.predictionsAlong
  rw [h.start, h.models]

theorem costAlong (h : p.Same q) (path : Path α s nus) : p.costAlong path = q.costAlong path := by
  unfold Problem.costAlong
  rw [h.models]

theorem gapsAlong (h : p.Same q) (path : Path α s nus) : p.gapsAlong path = q.gapsAlong path := by
  unfold Problem.gapsAlong
  rw [h.predictionsAlong]

theorem isRollout (h : p.Same q) (path : Path α s nus) : p.IsRollout path ↔ q.IsRollout path := by
  unfold IsRollout
  rw [h.predictionsAlong]

end Same

theorem same_evaluate (p : Problem α s nus) (path : Path α s nus) : (p.evaluate path).Same p :=
  ⟨rfl, Stages.models_evaluate _ _⟩

theorem same_expand (p : Problem α s nus) (path : Path α s nus) : (p.expand path).Same p :=
  ⟨rfl, Stages.models_expand _ _⟩

theorem same_rollout (p : Problem α s nus) (us : Controls α nus) : (p.rollout us).1.Same p :=
  ⟨rfl, Stages.models_rolloutFrom _ _ _⟩

/-- Expanding along a path leaves nothing of what was expanded before. -/
theorem expand_congr {p q : Problem α s nus} (h : p.Same q)
    (hevals : p.stages.storedEvaluations = q.stages.storedEvaluations) (path : Path α s nus) :
    p.expand path = q.expand path := by
  obtain ⟨start, a⟩ := p
  obtain ⟨start', b⟩ := q
  obtain ⟨rfl, hmodels⟩ := h
  refine congrArg (Problem.mk start) (Stages.eq_of_stored ?_ ?_ ?_)
  · rw [Stages.models_expand, Stages.models_expand, hmodels]
  · rw [Stages.storedEvaluations_expand, Stages.storedEvaluations_expand, hevals]
  · rw [Stages.storedExpansions_expand, Stages.storedExpansions_expand, hmodels]

/-- **The path of a rollout follows its own predictions.** -/
theorem isRollout_rollout (p : Problem α s nus) (us : Controls α nus) :
    p.IsRollout (p.rollout us).2 :=
  Stages.stateList_rolloutFrom p.start p.stages us

/-- The total cost is that of the path whose evaluations are stored. -/
theorem totalCost_eq_costAlong {p : Problem α s nus} {path : Path α s nus}
    (h : p.stages.storedEvaluations = p.stages.models.evaluations path) :
    p.totalCost = p.costAlong path := by
  unfold totalCost costAlong
  rw [Stages.totalCost_eq, h]

theorem totalCost_congr {p q : Problem α s nus}
    (hevals : p.stages.storedEvaluations = q.stages.storedEvaluations) :
    p.totalCost = q.totalCost := by
  unfold totalCost
  rw [Stages.totalCost_eq, Stages.totalCost_eq, hevals]

theorem gaps_congr {p q : Problem α s nus} (h : p.Same q)
    (hevals : p.stages.storedEvaluations = q.stages.storedEvaluations) (path : Path α s nus) :
    p.gaps path = q.gaps path := by
  unfold gaps
  rw [Stages.gapsFrom_congr p.start path hevals, h.start]

/-- The gaps of a path whose evaluations are stored are those along it. -/
theorem gaps_eq_gapsAlong {p : Problem α s nus} {path : Path α s nus}
    (h : p.stages.storedEvaluations = p.stages.models.evaluations path) :
    (p.gaps path).toList id id = p.gapsAlong path := by
  unfold gaps gapsAlong predictionsAlong
  rw [Stages.toList_gapsFrom, h]

end Problem

end Shooting
