import Mathlib.Data.List.Forall2
import Newsreel.World

/-!
What work that may fail does to its state, read off step by step.

Work ends well exactly when all of its pieces do, one after the other; when it fails, the pieces
before the one that failed have ended well, and the state is the one which that piece has left.
-/

namespace Newsreel

/-- Of two lists that are related item by item the second has a related item at each place. -/
theorem exists_at_of_forall₂ {α β : Type} {related : α → β → Prop} {items : List α}
    {others : List β} (all : List.Forall₂ related items others) {place : Nat} {item : α}
    (here : items[place]? = some item) :
    ∃ other, others[place]? = some other ∧ related item other := by
  obtain ⟨within, rfl⟩ := List.getElem?_eq_some_iff.mp here
  have withinOthers : place < others.length := all.length_eq ▸ within
  exact ⟨others[place], List.getElem?_eq_getElem withinOthers, all.get within withinOthers⟩

end Newsreel

namespace Newsreel.Outcome

variable {ε α β : Type} {first : Except ε α} {next : α → Except ε β}

theorem bind_ok_iff {b : β} : (first >>= next) = .ok b ↔ ∃ a, first = .ok a ∧ next a = .ok b := by
  cases first with
  | error error => simp [bind, Except.bind]
  | ok a => simp [bind, Except.bind]

/-- Items are read one by one. -/
theorem mapM_ok_iff {f : α → Except ε β} {items : List α} {results : List β} :
    items.mapM f = .ok results ↔
      List.Forall₂ (fun item result => f item = .ok result) items results := by
  induction items generalizing results with
  | nil => simp [pure, Except.pure, eq_comm]
  | cons item items ih =>
    rw [List.mapM_cons, bind_ok_iff]
    constructor
    · rintro ⟨head, read, success⟩
      obtain ⟨tail, others, success⟩ := bind_ok_iff.mp success
      cases success
      exact .cons read (ih.mp others)
    · rintro (_ | ⟨read, others⟩)
      exact ⟨_, read, bind_ok_iff.mpr ⟨_, ih.mpr others, rfl⟩⟩

end Newsreel.Outcome

namespace Newsreel.Attempt

variable {σ α β : Type} {work : Attempt σ α} {next : α → Attempt σ β} {before after : σ}

theorem bind_run_ok {a : α} (success : work before = (.ok a, after)) :
    (work >>= next) before = next a after := by
  simp only [bind, ExceptT.bind, ExceptT.mk, StateT.bind, success, ExceptT.bindCont]

theorem bind_run_error {error : StepError} (failure : work before = (.error error, after)) :
    (work >>= next) before = (.error error, after) := by
  simp only [bind, ExceptT.bind, ExceptT.mk, StateT.bind, failure, ExceptT.bindCont]
  rfl

theorem bind_run_congr {other : σ} (same : work before = work other) :
    (work >>= next) before = (work >>= next) other := by
  simp only [bind, ExceptT.bind, ExceptT.mk, StateT.bind, same]

theorem look_bind_ok {f : σ → Except StepError α} {a : α} (found : f before = .ok a) :
    (look f >>= next) before = next a before :=
  bind_run_ok (congrArg (fun outcome => (outcome, before)) found)

theorem look_bind_error {f : σ → Except StepError α} {error : StepError}
    (found : f before = .error error) : (look f >>= next) before = (.error error, before) :=
  bind_run_error (congrArg (fun outcome => (outcome, before)) found)

theorem tryCatch_run_ok {next : StepError → Attempt σ α} {a : α}
    (success : work before = (.ok a, after)) : tryCatch work next before = (.ok a, after) := by
  simp only [tryCatch, tryCatchThe, MonadExceptOf.tryCatch, ExceptT.tryCatch, ExceptT.mk, bind,
    StateT.bind, success]
  rfl

theorem tryCatch_run_error {next : StepError → Attempt σ α} {error : StepError}
    (failure : work before = (.error error, after)) :
    tryCatch work next before = next error after := by
  simp only [tryCatch, tryCatchThe, MonadExceptOf.tryCatch, ExceptT.tryCatch, ExceptT.mk, bind,
    StateT.bind, failure]

theorem bind_ok_iff {b : β} : (work >>= next) before = (.ok b, after) ↔
    ∃ a between, work before = (.ok a, between) ∧ next a between = (.ok b, after) := by
  constructor
  · intro success
    rcases run : work before with ⟨error | a, between⟩
    · rw [bind_run_error run] at success
      cases success
    · rw [bind_run_ok run] at success
      exact ⟨a, between, rfl, success⟩
  · rintro ⟨a, between, first, rest⟩
    rw [bind_run_ok first, rest]

theorem bind_error_iff {error : StepError} : (work >>= next) before = (.error error, after) ↔
    work before = (.error error, after) ∨
      ∃ a between, work before = (.ok a, between) ∧ next a between = (.error error, after) := by
  constructor
  · intro failure
    rcases run : work before with ⟨source | a, between⟩
    · rw [bind_run_error run] at failure
      cases failure
      exact Or.inl rfl
    · rw [bind_run_ok run] at failure
      exact Or.inr ⟨a, between, rfl, failure⟩
  · rintro (first | ⟨a, between, first, rest⟩)
    · rw [bind_run_error first]
    · rw [bind_run_ok first, rest]

theorem pure_ok_iff {a b : α} :
    (pure a : Attempt σ α) before = (.ok b, after) ↔ a = b ∧ before = after := by
  change (Except.ok a, before) = (Except.ok b, after) ↔ _
  rw [Prod.mk.injEq, Except.ok.injEq]

theorem ofExcept_ok_iff {outcome : Except StepError α} {a : α} :
    ofExcept outcome before = (.ok a, after) ↔ outcome = .ok a ∧ before = after :=
  iff_of_eq (Prod.mk.injEq _ _ _ _)

theorem ofExcept_error_iff {outcome : Except StepError α} {error : StepError} :
    ofExcept outcome before = (.error error, after) ↔ outcome = .error error ∧ before = after :=
  iff_of_eq (Prod.mk.injEq _ _ _ _)

/-- Pieces of work, one after the other. -/
def inOrder : List (Attempt σ Unit) → Attempt σ Unit
  | [] => pure ()
  | work :: rest => do
    work
    inOrder rest

/-- Pieces of work fail where one of them fails on what all the pieces before it have left. -/
theorem inOrder_error_iff {works : List (Attempt σ Unit)} {error : StepError} :
    inOrder works before = (.error error, after) ↔ ∃ i work between, works[i]? = some work ∧
      inOrder (works.take i) before = (.ok (), between) ∧ work between = (.error error, after) := by
  induction works generalizing before with
  | nil =>
    constructor
    · intro impossible
      cases impossible
    · rintro ⟨i, work, between, present, -⟩
      cases present
  | cons first rest ih =>
    rw [inOrder, bind_error_iff]
    constructor
    · rintro (failed | ⟨⟨⟩, between, done, later⟩)
      · exact ⟨0, first, before, rfl, rfl, failed⟩
      · obtain ⟨i, work, behind, present, earlier, failed⟩ := ih.mp later
        exact ⟨i + 1, work, behind, present, bind_ok_iff.mpr ⟨(), between, done, earlier⟩, failed⟩
    · rintro ⟨i, work, between, present, earlier, failed⟩
      cases i with
      | zero =>
        cases present
        cases earlier
        exact Or.inl failed
      | succ i =>
        rw [List.take_succ_cons, inOrder, bind_ok_iff] at earlier
        obtain ⟨⟨⟩, behind, done, earlier⟩ := earlier
        exact Or.inr ⟨(), behind, done, ih.mpr ⟨i, work, between, present, earlier, failed⟩⟩

theorem inOrder_map_error_iff {ι : Type} {piece : ι → Attempt σ Unit} {items : List ι}
    {error : StepError} :
    inOrder (items.map piece) before = (.error error, after) ↔
      ∃ i item between, items[i]? = some item ∧
        inOrder ((items.take i).map piece) before = (.ok (), between) ∧
        piece item between = (.error error, after) := by
  rw [inOrder_error_iff]
  constructor
  · rintro ⟨i, work, between, present, earlier, failed⟩
    rw [List.getElem?_map, Option.map_eq_some_iff] at present
    obtain ⟨item, present, rfl⟩ := present
    rw [← List.map_take] at earlier
    exact ⟨i, item, between, present, earlier, failed⟩
  · rintro ⟨i, item, between, present, earlier, failed⟩
    refine ⟨i, piece item, between, ?_, ?_, failed⟩
    · rw [List.getElem?_map, present]
      rfl
    · rw [← List.map_take]
      exact earlier

/-! Lists of items. -/

section StopsAt

variable {ι : Type} {listed : List ι → Attempt σ α} {items : List ι} {place : Nat} {item : ι}
  {between : σ} {error : StepError}

/-- Work on a list of items comes as far as one of them and stops there, whatever items come behind
it. -/
structure StopsAt (listed : List ι → Attempt σ α) (items : List ι) (before : σ) (place : Nat)
    (item : ι) (between : σ) (error : StepError) (after : σ) : Prop where
  present : items[place]? = some item
  earlier : ∃ a, listed (items.take place) before = (.ok a, between)
  alone : ∀ later, listed (items.take place ++ item :: later) before = (.error error, after)

theorem StopsAt.failed (stops : StopsAt listed items before place item between error after) :
    listed items before = (.error error, after) := by
  obtain ⟨inside, rfl⟩ := List.getElem?_eq_some_iff.mp stops.present
  have alone := stops.alone (items.drop (place + 1))
  rwa [← List.drop_eq_getElem_cons, List.take_append_drop] at alone

theorem stopsAt_first {a : α} {rest : List ι} (empty : listed [] before = (.ok a, before))
    (failed : ∀ later, listed (item :: later) before = (.error error, after)) :
    StopsAt listed (item :: rest) before 0 item before error after :=
  ⟨rfl, ⟨a, empty⟩, failed⟩

/-- The first item done, the work stops where the rest of it stops. -/
theorem StopsAt.cons {rest : List ι → Attempt σ α} {first : ι} {behind : σ}
    (stops : StopsAt rest items behind place item between error after)
    (goes : ∀ items, listed (first :: items) before = rest items behind) :
    StopsAt listed (first :: items) before (place + 1) item between error after where
  present := stops.present
  earlier := by
    rw [List.take_succ_cons, goes]
    exact stops.earlier
  alone later := by
    rw [List.take_succ_cons, List.cons_append, goes]
    exact stops.alone later

/-- What is made of the value in the end has no say in it. -/
theorem StopsAt.map (stops : StopsAt listed items before place item between error after)
    (f : α → β) :
    StopsAt (fun items => listed items >>= fun a => pure (f a)) items before place item between
      error after where
  present := stops.present
  earlier := stops.earlier.imp' f fun _ done => bind_run_ok done
  alone later := bind_run_error (stops.alone later)

theorem inOrder_map_stopsAt {piece : ι → Attempt σ Unit} (present : items[place]? = some item)
    (earlier : inOrder ((items.take place).map piece) before = (.ok (), between))
    (failed : piece item between = (.error error, after)) :
    StopsAt (fun items => inOrder (items.map piece)) items before place item between error
      after := by
  refine ⟨present, ⟨(), earlier⟩, fun later => inOrder_map_error_iff.mpr
    ⟨(items.take place).length, item, between, ?_, ?_, failed⟩⟩
  · rw [List.getElem?_append_right (Nat.le_refl _), Nat.sub_self]
    rfl
  · rw [List.take_left]
    exact earlier

end StopsAt

/-! The layer around a failure has no say in anything else. -/

theorem annotate_congr {other : Attempt σ α} (same : work before = other before)
    (layer : StepError → StepError) : annotate layer work before = annotate layer other before := by
  rw [annotate, annotate, same]

theorem annotate_fst_ok_iff {layer : StepError → StepError} {a : α} :
    (annotate layer work before).1 = .ok a ↔ (work before).1 = .ok a := by
  rw [annotate]
  rcases work before with ⟨error | b, between⟩
  · constructor <;> intro impossible <;> cases impossible
  · exact Iff.rfl

theorem annotate_run (layer : StepError → StepError) (work : Attempt σ α) (before : σ) :
    annotate layer work before = ((work before).1.mapError layer, (work before).2) := by
  rw [annotate]
  rcases work before with ⟨error | a, after⟩ <;> rfl

theorem annotate_snd (layer : StepError → StepError) (work : Attempt σ α) (before : σ) :
    (annotate layer work before).2 = (work before).2 := by
  rw [annotate_run]

theorem annotate_ok_iff {layer : StepError → StepError} {a : α} :
    annotate layer work before = (.ok a, after) ↔ work before = (.ok a, after) := by
  rw [annotate]
  rcases work before with ⟨error | b, between⟩
  · constructor <;> intro impossible <;> cases impossible
  · exact Iff.rfl

theorem annotate_error_iff {layer : StepError → StepError} {error : StepError} :
    annotate layer work before = (.error error, after) ↔
      ∃ source, work before = (.error source, after) ∧ layer source = error := by
  rw [annotate]
  rcases work before with ⟨source | a, between⟩
  · constructor
    · intro failure
      cases failure
      exact ⟨source, rfl, rfl⟩
    · rintro ⟨_, failure, rfl⟩
      cases failure
      rfl
  · constructor
    · intro impossible
      cases impossible
    · rintro ⟨_, impossible, -⟩
      cases impossible

/-! What stays true of a state, whether the work fails or not. -/

def Preserves (invariant : σ → Prop) (work : Attempt σ α) : Prop :=
  ∀ state, invariant state → invariant (work state).2

section Preserves

variable {invariant : σ → Prop}

theorem preserves_pure (a : α) : Preserves invariant (pure a : Attempt σ α) := fun _ holds => holds

theorem preserves_throw (error : StepError) : Preserves invariant (throw error : Attempt σ α) :=
  fun _ holds => holds

theorem preserves_ofExcept (outcome : Except StepError α) :
    Preserves invariant (ofExcept outcome) := fun _ holds => holds

theorem preserves_look (f : σ → Except StepError α) : Preserves invariant (look f) :=
  fun _ holds => holds

theorem Preserves.bind (first : Preserves invariant work)
    (later : ∀ a, Preserves invariant (next a)) : Preserves invariant (work >>= next) := by
  intro state holds
  have between := first state holds
  rcases run : work state with ⟨error | a, left⟩
  · rw [bind_run_error run]
    rwa [run] at between
  · rw [bind_run_ok run]
    rw [run] at between
    exact later a left between

theorem Preserves.annotate (inside : Preserves invariant work) (layer : StepError → StepError) :
    Preserves invariant (annotate layer work) := by
  intro state holds
  rw [annotate_snd]
  exact inside state holds

theorem preserves_inOrder {works : List (Attempt σ Unit)}
    (each : ∀ work ∈ works, Preserves invariant work) : Preserves invariant (inOrder works) := by
  induction works with
  | nil => exact preserves_pure ()
  | cons work rest ih =>
    exact (each work List.mem_cons_self).bind fun _ =>
      ih fun other later => each other (List.mem_cons_of_mem work later)

/-- Work is not done again: what a piece of work has done needs no doing, no other piece gives it
anything to do, and a piece that fails does nothing. So behind all pieces, or behind the first that
fails, the same work comes out the same and changes nothing. -/
theorem inOrder_again {works : List (Attempt σ Unit)} {outcome : Except StepError Unit}
    (once : ∀ work ∈ works, ∀ before after : σ,
      work before = (.ok (), after) → work after = (.ok (), after))
    (undone : ∀ work ∈ works, ∀ (before after : σ) (error : StepError),
      work before = (.error error, after) → after = before)
    (keeps : ∀ work ∈ works, ∀ other ∈ works,
      Preserves (fun state => work state = (.ok (), state)) other)
    (ran : inOrder works before = (outcome, after)) : inOrder works after = (outcome, after) := by
  induction works generalizing before with
  | nil => cases ran; rfl
  | cons work rest ih =>
    have inRest {P : Attempt σ Unit → Prop} (each : ∀ other ∈ work :: rest, P other) :
        ∀ other ∈ rest, P other := fun other member => each other (List.mem_cons_of_mem _ member)
    rcases first : work before with ⟨error | ⟨⟨⟩⟩, between⟩
    · obtain rfl : between = before := undone work List.mem_cons_self _ _ _ first
      rw [inOrder, bind_run_error first] at ran
      cases ran
      rw [inOrder, bind_run_error first]
    · rw [inOrder, bind_run_ok first] at ran
      have again := ih (inRest once) (inRest undone)
        (fun other member => inRest (keeps other (List.mem_cons_of_mem _ member))) ran
      have settled : work between = (.ok (), between) := once work List.mem_cons_self _ _ first
      have still := preserves_inOrder (inRest (keeps work List.mem_cons_self)) between settled
      rw [ran] at still
      rw [inOrder, bind_run_ok still, again]

theorem Preserves.recover {next : StepError → Attempt σ α} (first : Preserves invariant work)
    (later : ∀ error, Preserves invariant (next error)) :
    Preserves invariant (tryCatch work next) := by
  intro state holds
  have between := first state holds
  rcases run : work state with ⟨error | a, left⟩
  · rw [tryCatch_run_error run]
    rw [run] at between
    exact later error left between
  · rw [tryCatch_run_ok run]
    rwa [run] at between

end Preserves

/-! Work that does not tell two states apart. -/

/-- The work comes out the same on related states and leaves them related. -/
def Relates (related : σ → σ → Prop) (work : Attempt σ α) : Prop :=
  ∀ first second, related first second →
    (work first).1 = (work second).1 ∧ related (work first).2 (work second).2

section Relates

variable {related : σ → σ → Prop}

theorem relates_ofExcept (outcome : Except StepError α) : Relates related (ofExcept outcome) :=
  fun _ _ holds => ⟨rfl, holds⟩

theorem relates_pure (a : α) : Relates related (pure a : Attempt σ α) :=
  fun _ _ holds => ⟨rfl, holds⟩

/-- What work does on the one state, it does on the other. -/
theorem Relates.run (relates : Relates related work) {one other left : σ}
    (holds : related one other) {outcome : Except StepError α} (ran : work one = (outcome, left)) :
    ∃ also, work other = (outcome, also) ∧ related left also := by
  obtain ⟨same, between⟩ := relates one other holds
  rw [ran] at same between
  exact ⟨(work other).2, Prod.ext same.symm rfl, between⟩

theorem Relates.bind (first : Relates related work) (later : ∀ a, Relates related (next a)) :
    Relates related (work >>= next) := by
  intro one other holds
  rcases ran : work one with ⟨error | a, left⟩
  · obtain ⟨also, too, between⟩ := first.run holds ran
    rw [bind_run_error ran, bind_run_error too]
    exact ⟨rfl, between⟩
  · obtain ⟨also, too, between⟩ := first.run holds ran
    rw [bind_run_ok ran, bind_run_ok too]
    exact later a left also between

theorem Relates.annotate (inside : Relates related work) (layer : StepError → StepError) :
    Relates related (annotate layer work) := by
  intro one other holds
  rcases ran : work one with ⟨outcome, left⟩
  obtain ⟨also, too, between⟩ := inside.run holds ran
  simp only [Attempt.annotate, ran, too]
  cases outcome with
  | error error => exact ⟨rfl, between⟩
  | ok a => exact ⟨rfl, between⟩

theorem Relates.recover {next : StepError → Attempt σ α} (first : Relates related work)
    (later : ∀ error, Relates related (next error)) : Relates related (tryCatch work next) := by
  intro one other holds
  rcases ran : work one with ⟨error | a, left⟩
  · obtain ⟨also, too, between⟩ := first.run holds ran
    rw [tryCatch_run_error ran, tryCatch_run_error too]
    exact later error left also between
  · obtain ⟨also, too, between⟩ := first.run holds ran
    rw [tryCatch_run_ok ran, tryCatch_run_ok too]
    exact ⟨rfl, between⟩

end Relates

/-! Work that takes no notice of a change to the state. -/

/-- The work comes out the same on the changed state, and leaves the change as it is. -/
def Ignores (change : σ → σ) (work : Attempt σ α) : Prop :=
  ∀ state, work (change state) = ((work state).1, change (work state).2)

section Ignores

variable {change : σ → σ}

theorem ignores_pure (a : α) : Ignores change (pure a : Attempt σ α) := fun _ => rfl

theorem ignores_look {f : σ → Except StepError α} (same : ∀ state, f (change state) = f state) :
    Ignores change (look f) := fun state => by rw [look, look, same]

/-- It is enough that the first piece ignores the change at the state at hand. -/
theorem bind_ignores_at {state : σ}
    (first : work (change state) = ((work state).1, change (work state).2))
    (later : ∀ a, Ignores change (next a)) : (work >>= next) (change state) =
      (((work >>= next) state).1, change ((work >>= next) state).2) := by
  rcases run : work state with ⟨error | a, left⟩
  · rw [run] at first
    rw [bind_run_error first, bind_run_error run]
  · rw [run] at first
    rw [bind_run_ok first, bind_run_ok run]
    exact later a left

theorem Ignores.bind (first : Ignores change work) (later : ∀ a, Ignores change (next a)) :
    Ignores change (work >>= next) := fun state => bind_ignores_at (first state) later

theorem Ignores.annotate (inside : Ignores change work) (layer : StepError → StepError) :
    Ignores change (annotate layer work) := by
  intro state
  rw [annotate_run, annotate_run, inside state]

end Ignores

/-! What work can fail with. -/

def FailsAs (fault : StepError → Prop) (work : Attempt σ α) : Prop :=
  ∀ state error, (work state).1 = .error error → fault error

section FailsAs

variable {fault : StepError → Prop}

theorem failsAs_pure (a : α) : FailsAs fault (pure a : Attempt σ α) := nofun

theorem failsAs_throw {error : StepError} (known : fault error) :
    FailsAs fault (throw error : Attempt σ α) := by
  rintro state _ ⟨⟩
  exact known

theorem failsAs_look {f : σ → Except StepError α}
    (known : ∀ state error, f state = .error error → fault error) : FailsAs fault (look f) := known

theorem failsAs_ofExcept {outcome : Except StepError α}
    (known : ∀ error, outcome = .error error → fault error) :
    FailsAs fault (ofExcept outcome : Attempt σ α) := fun _ => known

theorem FailsAs.bind (first : FailsAs fault work) (later : ∀ a, FailsAs fault (next a)) :
    FailsAs fault (work >>= next) := by
  intro state error failed
  rcases bind_error_iff.mp (Prod.ext failed rfl) with stopped | ⟨a, between, -, stopped⟩
  · exact first state error (congrArg Prod.fst stopped)
  · exact later a between error (congrArg Prod.fst stopped)

theorem FailsAs.mono {wider : StepError → Prop} (known : FailsAs fault work)
    (covers : ∀ error, fault error → wider error) : FailsAs wider work :=
  fun state error failed => covers error (known state error failed)

theorem FailsAs.within {τ : Type} (known : FailsAs fault work) (get : τ → σ) (put : τ → σ → τ) :
    FailsAs fault (within get put work) := by
  intro state error failed
  rw [Attempt.within] at failed
  exact known (get state) error failed

end FailsAs

end Newsreel.Attempt

namespace Newsreel.Effect

variable {α : Type}

/-- Work on the files leaves the rest of the world as it is. -/
theorem onFiles_snd (work : Files.Work α) (world : World) :
    (onFiles work world).2 = { world with files := (work world.files).2 } := by
  rw [onFiles]
  split <;> next ran => rw [ran]

/-- Work on the files, as work on the world. -/
theorem onFiles_preserves (invariant : Files.Tree → Prop) {work : Files.Work α}
    (keeps : ∀ tree, invariant tree → invariant (work tree).2) :
    (onFiles work).Preserves fun world => invariant world.files := by
  intro world holds
  rw [onFiles_snd]
  exact keeps world.files holds

end Newsreel.Effect
