import Newsreel.Proofs.Context.Refusal

/-!
Chains of aliases.

A scope fixes what `_key` and `_loop` stand for, and the head of a path alone says whether it is one of
them. So when three aliases have been replaced in a row, two of the three heads were the same and the
heads go round in a circle: a search that ends at all replaces two aliases at most. The limit on the
replacements is met by the circles and by nothing else.
-/

namespace Newsreel

/-- The path that a head stands for. -/
def Scope.target? (scope : Scope) (head : String) : Option String :=
  if head = "_key" then scope.key?
  else if head = "_loop" then scope.valueFrame?.bind (·.itemPath)
  else none

/-- The head of the path that a head stands for. -/
def Scope.nextHead? (scope : Scope) (head : String) : Option String :=
  (scope.target? head).bind fun target => match Path.split target with
    | .ok segments => segments.head?
    | .error _ => none

namespace Scope

variable {scope : Scope}

theorem alias_of_nextHead? {head next : String} (leads : scope.nextHead? head = some next) :
    head = "_key" ∨ head = "_loop" := by
  by_contra neither
  rw [not_or] at neither
  simp [nextHead?, target?, neither] at leads

/-- Among three heads that stand for paths two are the same, so the fourth one is the second one. -/
theorem nextHead?_returns {first second third fourth : String}
    (one : scope.nextHead? first = some second) (two : scope.nextHead? second = some third)
    (three : scope.nextHead? third = some fourth) : fourth = second := by
  have twice : first = second ∨ second = third ∨ first = third := by
    rcases alias_of_nextHead? one with rfl | rfl <;>
      rcases alias_of_nextHead? two with rfl | rfl <;>
        rcases alias_of_nextHead? three with rfl | rfl <;> simp
  rcases twice with rfl | rfl | rfl
  · have again : third = first := by simpa [one] using two.symm
    subst again
    simpa [one] using three.symm
  · simpa [two] using three.symm
  · simpa [one] using three.symm

end Scope

/-- What blocks a walk through a value is no chain of aliases. -/
theorem Value.Blocks.ne_tooDeep {path : String} {segments : List String} {value : Value}
    {error : StepError} (blocks : Value.Blocks path segments value error) :
    error ≠ .invalidValue path .aliasTooDeep := by
  induction blocks with
  | inField _ _ ih => exact ih
  | inItem _ _ _ ih => exact ih
  | _ => simp

namespace Context

variable {context : Context} {path : String} {scope : Scope}

theorem expand_replaced_iff {head : String} {rest next : List String} :
    context.expand path scope (head :: rest) = .replaced next ↔
      ∃ target segments, scope.target? head = some target ∧ Path.split target = .ok segments ∧
        next = segments ++ rest := by
  have stands {target : String} : replaceHead target rest = .replaced next ↔
      ∃ segments, Path.split target = .ok segments ∧ next = segments ++ rest := by
    unfold replaceHead
    cases Path.split target <;> simp [eq_comm]
  by_cases key : head = "_key"
  · subst key
    cases bound : scope.key? with
    | none => simp [expand, Scope.target?, bound]
    | some target => simp [expand, Scope.target?, bound, stands]
  by_cases loop : head = "_loop"
  · subst loop
    cases bound : scope.valueFrame? with
    | none => simp [expand, Scope.target?, bound]
    | some frame =>
      cases inData : frame.itemPath with
      | some target => simp [expand, Scope.target?, bound, inData, stands]
      | none => cases held : frame.value <;> simp [expand, Scope.target?, bound, inData, held]
  · have noAlias : scope.target? head = none := by simp [Scope.target?, key, loop]
    simp only [noAlias]
    constructor
    · intro replaced
      unfold expand at replaced
      repeat' split at replaced
      all_goals simp_all
    · rintro ⟨target, segments, absent, -⟩
      cases absent

/-- Where an alias is replaced, the head of what comes in its place is known from the alias. -/
theorem nextHead?_of_replaced {segments next : List String}
    (replaced : context.expand path scope segments = .replaced next) :
    ∃ head rest, segments = head :: rest ∧ scope.nextHead? head = next.head? ∧
      next.head?.isSome := by
  cases segments with
  | nil => simp [expand] at replaced
  | cons head rest =>
    obtain ⟨target, front, stands, read, rfl⟩ := expand_replaced_iff.mp replaced
    obtain ⟨first, back, rfl⟩ := List.exists_cons_of_ne_nil (Path.split_settled read).ne_nil
    exact ⟨head, rest, rfl, by simp [Scope.nextHead?, stands, read], rfl⟩

theorem replaced_of_nextHead? {head next : String} (leads : scope.nextHead? head = some next)
    (rest : List String) :
    ∃ segments, context.expand path scope (head :: rest) = .replaced segments := by
  obtain ⟨target, stands, readable⟩ := Option.bind_eq_some_iff.mp leads
  split at readable
  · next segments read =>
    exact ⟨segments ++ rest, expand_replaced_iff.mpr ⟨target, segments, stands, read, rfl⟩⟩
  · cases readable

/-- After three replacements the head is the one of two replacements before, so that the search goes
on. -/
theorem replaced_again {one two three four : List String}
    (first : context.expand path scope one = .replaced two)
    (second : context.expand path scope two = .replaced three)
    (third : context.expand path scope three = .replaced four) :
    four.head? = two.head? ∧ ∃ five, context.expand path scope four = .replaced five := by
  obtain ⟨headOne, _, rfl, leadsOne, -⟩ := nextHead?_of_replaced first
  obtain ⟨headTwo, _, rfl, leadsTwo, -⟩ := nextHead?_of_replaced second
  obtain ⟨headThree, _, rfl, leadsThree, someFour⟩ := nextHead?_of_replaced third
  obtain ⟨headFour, nextFour⟩ := Option.isSome_iff_exists.mp someFour
  obtain ⟨rest, rfl⟩ : ∃ rest, four = headFour :: rest := List.head?_eq_some_iff.mp nextFour
  simp only [List.head?_cons] at leadsOne leadsTwo leadsThree ⊢
  obtain rfl := Scope.nextHead?_returns leadsOne leadsTwo leadsThree
  exact ⟨rfl, replaced_of_nextHead? leadsTwo rest⟩

/-! ## Searches without a limit -/

/-- The search ends after the given count of replacements, however many may be made. -/
inductive Settles (context : Context) (path : String) (scope : Scope) :
    (count : Nat) → List String → Except StepError Location → Prop where
  | found {segments : List String} {location : Location}
      (expanded : context.expand path scope segments = .found location) :
      Settles context path scope 0 segments (.ok location)
  | failed {segments : List String} {error : StepError}
      (expanded : context.expand path scope segments = .failed error) :
      Settles context path scope 0 segments (.error error)
  | replaced {segments next : List String} {count : Nat} {outcome : Except StepError Location}
      (expanded : context.expand path scope segments = .replaced next)
      (behind : Settles context path scope count next outcome) :
      Settles context path scope (count + 1) segments outcome

/-- The search for a path ends, with a fault of the path itself or behind some replacements. -/
inductive Ends (context : Context) (path : String) (scope : Scope) :
    (count : Nat) → Except StepError Location → Prop where
  | unread {error : StepError} (fault : Path.split path = .error error) :
      Ends context path scope 0 (.error error)
  | settled {segments : List String} {count : Nat} {outcome : Except StepError Location}
      (read : Path.split path = .ok segments)
      (settles : context.Settles path scope count segments outcome) :
      Ends context path scope count outcome

/-- The segments that a search without end comes to, one after the other. -/
structure Circles (context : Context) (path : String) (scope : Scope)
    (walk : Nat → List String) : Prop where
  begins : Path.split path = .ok (walk 0)
  goesOn : ∀ i, context.expand path scope (walk i) = .replaced (walk (i + 1))

theorem Settles.locateWithin_eq {count : Nat} {segments : List String}
    {outcome : Except StepError Location} (settles : context.Settles path scope count segments outcome)
    {steps : Nat} (enough : count < steps) :
    context.locateWithin path scope steps segments = outcome := by
  induction settles generalizing steps with
  | found expanded =>
    obtain ⟨steps, rfl⟩ := Nat.exists_eq_add_one.mpr enough
    rw [locateWithin, expanded]
  | failed expanded =>
    obtain ⟨steps, rfl⟩ := Nat.exists_eq_add_one.mpr enough
    rw [locateWithin, expanded]
  | replaced expanded behind ih =>
    obtain ⟨steps, rfl⟩ := Nat.exists_eq_add_one.mpr (Nat.zero_lt_of_lt enough)
    rw [locateWithin, expanded]
    exact ih (by omega)

/-- Behind three replacements there is no end. -/
theorem Settles.not_behind_three {count : Nat} {one two three four : List String}
    {outcome : Except StepError Location}
    (first : context.expand path scope one = .replaced two)
    (second : context.expand path scope two = .replaced three)
    (third : context.expand path scope three = .replaced four) :
    ¬context.Settles path scope count four outcome := by
  intro settles
  induction settles generalizing one two three with
  | found expanded =>
    obtain ⟨-, five, again⟩ := replaced_again first second third
    simp [expanded] at again
  | failed expanded =>
    obtain ⟨-, five, again⟩ := replaced_again first second third
    simp [expanded] at again
  | replaced expanded behind ih => exact ih second third expanded

theorem Settles.count_le {count : Nat} {segments : List String}
    {outcome : Except StepError Location}
    (settles : context.Settles path scope count segments outcome) : count ≤ 2 := by
  cases settles with
  | found => omega
  | failed => omega
  | replaced first behind =>
    cases behind with
    | found => omega
    | failed => omega
    | replaced second behind =>
      cases behind with
      | found => omega
      | failed => omega
      | replaced third behind => exact absurd behind (not_behind_three first second third)

/-- A search ends, or its first three heads are aliases. -/
theorem settles_or_replaced (context : Context) (path : String) (scope : Scope)
    (segments : List String) :
    (∃ count outcome, context.Settles path scope count segments outcome) ∨
      ∃ two three four, context.expand path scope segments = .replaced two ∧
        context.expand path scope two = .replaced three ∧
        context.expand path scope three = .replaced four := by
  cases first : context.expand path scope segments with
  | found location => exact .inl ⟨0, _, .found first⟩
  | failed error => exact .inl ⟨0, _, .failed first⟩
  | replaced two =>
    cases second : context.expand path scope two with
    | found location => exact .inl ⟨1, _, .replaced first (.found second)⟩
    | failed error => exact .inl ⟨1, _, .replaced first (.failed second)⟩
    | replaced three =>
      cases third : context.expand path scope three with
      | found location => exact .inl ⟨2, _, .replaced first (.replaced second (.found third))⟩
      | failed error => exact .inl ⟨2, _, .replaced first (.replaced second (.failed third))⟩
      | replaced four => exact .inr ⟨two, three, four, rfl, second, third⟩

/-- The segments in which the alias at the head has been replaced. -/
def follow (context : Context) (path : String) (scope : Scope) (segments : List String) :
    List String :=
  match context.expand path scope segments with
  | .replaced next => next
  | _ => segments

theorem follow_of_replaced {segments next : List String}
    (replaced : context.expand path scope segments = .replaced next) :
    context.follow path scope segments = next := by
  rw [follow, replaced]

/-- Three replacements go on for ever. -/
theorem replaced_forever {one two three four : List String}
    (first : context.expand path scope one = .replaced two)
    (second : context.expand path scope two = .replaced three)
    (third : context.expand path scope three = .replaced four) (i : Nat) :
    context.expand path scope ((context.follow path scope)^[i] one) =
      .replaced ((context.follow path scope)^[i + 1] one) := by
  induction i generalizing one two three four with
  | zero => simp [first, follow]
  | succ i ih =>
    obtain ⟨-, five, fourth⟩ := replaced_again first second third
    have later := ih second third fourth
    rwa [← follow_of_replaced first, ← Function.iterate_succ_apply,
      ← Function.iterate_succ_apply] at later

/-- The search for a path ends or goes on for ever. -/
theorem ends_or_circles (context : Context) (path : String) (scope : Scope) :
    (∃ count outcome, context.Ends path scope count outcome) ∨
      ∃ walk, context.Circles path scope walk := by
  cases read : Path.split path with
  | error error => exact .inl ⟨0, _, .unread read⟩
  | ok segments =>
    rcases settles_or_replaced context path scope segments with
      ⟨count, outcome, settles⟩ | ⟨two, three, four, first, second, third⟩
    · exact .inl ⟨count, outcome, .settled read settles⟩
    · exact .inr ⟨fun i => (context.follow path scope)^[i] segments, read,
        replaced_forever first second third⟩

theorem Ends.count_le {count : Nat} {outcome : Except StepError Location}
    (ends : context.Ends path scope count outcome) : count ≤ 2 := by
  cases ends with
  | unread => omega
  | settled read settles => exact settles.count_le

/-- Where a search ends by itself, the limit has no say in it. -/
theorem Ends.locate_eq {count : Nat} {outcome : Except StepError Location}
    (ends : context.Ends path scope count outcome) : context.locate path scope = outcome := by
  have few := ends.count_le
  cases ends with
  | unread fault => exact locate_of_split_error fault context scope
  | settled read settles =>
    rw [locate_of_split read]
    exact settles.locateWithin_eq (by simp only [aliasLimit]; omega)

/-! No search that ends by itself ends as one that is cut off: the faults of paths have other words. -/

theorem split_ne_tooDeep {text : String} {error : StepError} (fault : Path.split text = .error error) :
    error ≠ .invalidValue path .aliasTooDeep := by
  rintro rfl
  simp only [Path.split] at fault
  split at fault <;> simp at fault

theorem replaceHead_ne_tooDeep (target : String) (rest : List String) :
    replaceHead target rest ≠ .failed (.invalidValue path .aliasTooDeep) := by
  unfold replaceHead
  cases fault : Path.split target with
  | ok segments => simp
  | error error => simpa using split_ne_tooDeep fault

theorem expand_ne_tooDeep (segments : List String) :
    context.expand path scope segments ≠ .failed (.invalidValue path .aliasTooDeep) := by
  intro failed
  unfold expand at failed
  repeat' split at failed
  all_goals simp [replaceHead_ne_tooDeep] at failed

theorem Settles.ne_tooDeep {count : Nat} {segments : List String}
    {outcome : Except StepError Location}
    (settles : context.Settles path scope count segments outcome) :
    outcome ≠ .error (.invalidValue path .aliasTooDeep) := by
  induction settles with
  | found expanded => simp
  | failed expanded =>
    intro same
    cases same
    exact expand_ne_tooDeep _ expanded
  | replaced expanded behind ih => exact ih

theorem Ends.ne_tooDeep {count : Nat} {outcome : Except StepError Location}
    (ends : context.Ends path scope count outcome) :
    outcome ≠ .error (.invalidValue path .aliasTooDeep) := by
  cases ends with
  | unread fault => simpa using split_ne_tooDeep fault
  | settled read settles => exact settles.ne_tooDeep

theorem Circles.locateWithin_eq {walk : Nat → List String} (circles : context.Circles path scope walk)
    (steps i : Nat) :
    context.locateWithin path scope steps (walk i) = .error (.invalidValue path .aliasTooDeep) := by
  induction steps generalizing i with
  | zero => rfl
  | succ steps ih =>
    rw [locateWithin, circles.goesOn i]
    exact ih (i + 1)

theorem Circles.locate_eq {walk : Nat → List String} (circles : context.Circles path scope walk) :
    context.locate path scope = .error (.invalidValue path .aliasTooDeep) := by
  rw [locate_of_split circles.begins]
  exact circles.locateWithin_eq _ 0

theorem locate_tooDeep_iff : context.locate path scope = .error (.invalidValue path .aliasTooDeep) ↔
    ∃ walk, context.Circles path scope walk := by
  constructor
  · intro cut
    rcases ends_or_circles context path scope with ⟨count, outcome, ends⟩ | circles
    · exact absurd (ends.locate_eq.symm.trans cut) ends.ne_tooDeep
    · exact circles
  · rintro ⟨walk, circles⟩
    exact circles.locate_eq

theorem get_tooDeep_iff : context.get path scope = .error (.invalidValue path .aliasTooDeep) ↔
    context.locate path scope = .error (.invalidValue path .aliasTooDeep) := by
  have read_ne (location : Location) :
      context.read path location ≠ .error (.invalidValue path .aliasTooDeep) := by
    unfold read
    repeat' split
    all_goals simp
  cases located : context.locate path scope with
  | error error =>
    simp [get, located, bind, Except.bind]
  | ok location =>
    rw [get, located]
    exact iff_of_false (read_ne location) (by simp)

theorem insert_tooDeep_iff {value : Value} :
    (context.insert path value scope).1 = .error (.invalidValue path .aliasTooDeep) ↔
      context.locate path scope = .error (.invalidValue path .aliasTooDeep) := by
  rw [insert_error_iff]
  constructor
  · generalize same : StepError.invalidValue path .aliasTooDeep = error
    rintro (failed | located | ⟨located, blocks⟩)
    · exact failed
    · cases same
    · exact absurd same.symm blocks.ne_tooDeep
  · exact .nowhere

/-- Without a limit the search for a path ends after at most two replacements or goes on for ever, with
heads that repeat. The limit leaves every search that ends as it is and turns away those that do not. -/
theorem limit_stops_circles (context : Context) (path : String) (scope : Scope) :
    ((∃ count ≤ 2, ∃ outcome, context.Ends path scope count outcome) ∨
      ∃ walk, context.Circles path scope walk) ∧
    (∀ count outcome, context.Ends path scope count outcome →
      count ≤ 2 ∧ context.locate path scope = outcome ∧
        ¬∃ walk, context.Circles path scope walk) ∧
    (∀ walk, context.Circles path scope walk →
      ∀ i, (walk (i + 3)).head? = (walk (i + 1)).head?) ∧
    (context.locate path scope = .error (.invalidValue path .aliasTooDeep) ↔
      ∃ walk, context.Circles path scope walk) ∧
    (context.get path scope = .error (.invalidValue path .aliasTooDeep) ↔
      ∃ walk, context.Circles path scope walk) ∧
    ∀ value, (context.insert path value scope).1 = .error (.invalidValue path .aliasTooDeep) ↔
      ∃ walk, context.Circles path scope walk := by
  refine ⟨?_, fun count outcome ends => ⟨ends.count_le, ends.locate_eq, ?_⟩, ?_,
    locate_tooDeep_iff, get_tooDeep_iff.trans locate_tooDeep_iff,
    fun value => insert_tooDeep_iff.trans locate_tooDeep_iff⟩
  · rcases ends_or_circles context path scope with ⟨count, outcome, ends⟩ | circles
    · exact .inl ⟨count, ends.count_le, outcome, ends⟩
    · exact .inr circles
  · rintro ⟨walk, circles⟩
    exact ends.ne_tooDeep (ends.locate_eq.symm.trans circles.locate_eq)
  · intro walk circles i
    exact (replaced_again (circles.goesOn i) (circles.goesOn (i + 1)) (circles.goesOn (i + 2))).1

end Context

end Newsreel
