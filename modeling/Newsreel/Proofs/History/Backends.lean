import Mathlib.Data.List.Sort
import Newsreel.History.Ledger
import Newsreel.History.Table
import Newsreel.Proofs.Calendar.Order

/-!
A ledger and a table keep the same history.

Whatever runs are saved, both hold each run id once, with the summary that was saved last under it.
They hold them in different orders: a replaced run keeps its place in the ledger and goes to the end
of the table. What is listed depends on that order no further than runs that began at the same time,
although the table compares the texts of times.
-/

namespace Newsreel

/-! Names. -/

namespace History

/-- Repetitions of a sorted list stand next to each other. -/
theorem eraseReps_loop (acc : List String) {name : String} {names : List String}
    (sorted : (name :: names).Pairwise (· ≤ ·)) :
    ∃ distinct, List.eraseRepsBy.loop (· == ·) name names acc = acc.reverse ++ distinct ∧
      distinct.Pairwise (· < ·) ∧ ∀ other, other ∈ distinct ↔ other ∈ name :: names := by
  induction names generalizing name acc with
  | nil => exact ⟨[name], by simp [List.eraseRepsBy.loop], List.pairwise_singleton _ _, by simp⟩
  | cons next rest ih =>
    obtain ⟨below, later⟩ := List.pairwise_cons.mp sorted
    rw [List.eraseRepsBy.loop]
    by_cases same : name = next
    · subst same
      obtain ⟨distinct, ran, increasing, members⟩ := ih acc later
      refine ⟨distinct, by simpa using ran, increasing, fun other => ?_⟩
      rw [members, List.mem_cons, List.mem_cons, List.mem_cons, ← or_assoc, or_self]
    · obtain ⟨distinct, ran, increasing, members⟩ := ih (name :: acc) later
      refine ⟨name :: distinct, ?_, List.pairwise_cons.mpr ⟨fun other member => ?_, increasing⟩,
        fun other => ?_⟩
      · have apart : (name == next) = false := beq_eq_false_iff_ne.mpr same
        simpa [apart] using ran
      · have less : name < next := Std.lt_of_le_of_ne (below next List.mem_cons_self) same
        rcases List.mem_cons.mp ((members other).mp member) with rfl | behind
        · exact less
        · exact Std.lt_of_lt_of_le less ((List.pairwise_cons.mp later).1 other behind)
      · rw [List.mem_cons, members, ← List.mem_cons]

/-- Each name once, in order. -/
theorem distinct_spec (names : List String) : (distinct names).Pairwise (· < ·) ∧
    ∀ name, name ∈ distinct names ↔ name ∈ names := by
  have trans : IsTrans String (· ≤ ·) := ⟨fun a b c => String.le_trans⟩
  have total : Std.Total fun a b : String => a ≤ b := ⟨String.le_total⟩
  have sorted := List.pairwise_mergeSort' (fun a b : String => a ≤ b) names
  have members (name : String) := (List.mergeSort_perm names fun a b => decide (a ≤ b)).mem_iff
    (a := name)
  rw [distinct]
  revert sorted members
  cases names.mergeSort fun a b => decide (a ≤ b) with
  | nil => exact fun _ members => ⟨List.Pairwise.nil, members⟩
  | cons name rest =>
    intro sorted members
    obtain ⟨names, ran, increasing, same⟩ := eraseReps_loop [] sorted
    rw [List.reverse_nil, List.nil_append] at ran
    have result : (name :: rest).eraseReps = names := ran
    rw [result]
    exact ⟨increasing, fun other => (same other).trans (members other)⟩

/-- The order and the number of times in which names come does not matter. -/
theorem distinct_congr {names others : List String}
    (same : ∀ name, name ∈ names ↔ name ∈ others) : distinct names = distinct others := by
  obtain ⟨increasing, members⟩ := distinct_spec names
  obtain ⟨increasingToo, membersToo⟩ := distinct_spec others
  have nodup {list : List String} (pairwise : list.Pairwise (· < ·)) : list.Nodup :=
    pairwise.imp fun less => Std.ne_of_lt less
  have perm := (List.perm_ext_iff_of_nodup (nodup increasing) (nodup increasingToo)).mpr
    fun name => ((members name).trans (same name)).trans (membersToo name).symm
  have antisymmetric (a b : String) (first : a < b) (second : b < a) : a = b :=
    absurd (String.lt_trans first second) (String.lt_irrefl a)
  exact perm.eq_of_pairwise (fun a b _ _ => antisymmetric a b) increasing increasingToo

end History

/-! What is kept. -/

/-- A history after some runs have been saved, one after the other. -/
def History.saved (σ : Type) [History σ] (runs : List RunSummary) : σ :=
  runs.foldl History.save History.empty

theorem History.saved_append {σ : Type} [History σ] (runs : List RunSummary) (run : RunSummary) :
    saved σ (runs ++ [run]) = History.save (saved σ runs) run := by
  rw [saved, List.foldl_append]
  rfl

/-- The run that was saved last under an id. -/
def lastSaved? (runs : List RunSummary) (runId : String) : Option RunSummary :=
  runs.reverse.find? fun run => run.runId = runId

theorem lastSaved?_append (runs : List RunSummary) (run : RunSummary) (runId : String) :
    lastSaved? (runs ++ [run]) runId =
      if run.runId = runId then some run else lastSaved? runs runId := by
  rw [lastSaved?, List.reverse_append, List.reverse_singleton, List.singleton_append,
    List.find?_cons]
  by_cases same : run.runId = runId
  · simp [same]
  · simp [same, lastSaved?]

theorem mem_of_lastSaved? {runs : List RunSummary} {run : RunSummary} {runId : String}
    (found : lastSaved? runs runId = some run) : run ∈ runs ∧ run.runId = runId :=
  ⟨List.mem_reverse.mp (List.mem_of_find?_eq_some found), by
    simpa using List.find?_some found⟩

/-- What is kept of some saved runs: under each id the run that was saved last. -/
structure Keeps (kept runs : List RunSummary) : Prop where
  ids : (kept.map (·.runId)).Nodup
  members (run : RunSummary) : run ∈ kept ↔ lastSaved? runs run.runId = some run

namespace Keeps

variable {kept after runs : List RunSummary} {run : RunSummary}

theorem nil : Keeps [] [] := ⟨List.nodup_nil, fun run => by simp [lastSaved?]⟩

/-- A run is saved where it takes the place of the one that was kept under its id. -/
theorem save (keeps : Keeps kept runs) (ids : (after.map (·.runId)).Nodup)
    (members : ∀ other, other ∈ after ↔ other = run ∨ (other ∈ kept ∧ other.runId ≠ run.runId)) :
    Keeps after (runs ++ [run]) := by
  refine ⟨ids, fun other => ?_⟩
  rw [members, lastSaved?_append, keeps.members]
  by_cases same : run.runId = other.runId
  · simp [same, eq_comm]
  · have apart : other ≠ run := fun equal => same (by rw [equal])
    simp [same, apart, Ne.symm same]

/-- Runs are found by their ids. -/
theorem find? (keeps : Keeps kept runs) (runId : String) :
    kept.find? (fun run => run.runId = runId) = lastSaved? runs runId := by
  cases found : kept.find? fun run => run.runId = runId with
  | some run =>
    have id : run.runId = runId := by simpa using List.find?_some found
    have last := (keeps.members run).mp (List.mem_of_find?_eq_some found)
    rw [← id, last]
  | none =>
    cases last : lastSaved? runs runId with
    | none => rfl
    | some run =>
      obtain ⟨-, rfl⟩ := mem_of_lastSaved? last
      have absent := List.find?_eq_none.mp found run ((keeps.members run).mpr last)
      simp at absent

theorem nodup (keeps : Keeps kept runs) : kept.Nodup :=
  List.Pairwise.of_map _ (fun _ _ apart same => apart (congrArg _ same)) keeps.ids

/-- Histories that keep the same hold it in different orders at most. -/
theorem perm {others : List RunSummary} (keeps : Keeps kept runs) (keepsToo : Keeps others runs) :
    kept.Perm others :=
  (List.perm_ext_iff_of_nodup keeps.nodup keepsToo.nodup).mpr fun run =>
    (keeps.members run).trans (keepsToo.members run).symm

end Keeps

/-! The ledger. -/

namespace Ledger

theorem mem_enter_iff {run other : RunSummary} {kept : List RunSummary}
    (ids : (kept.map (·.runId)).Nodup) :
    other ∈ enter run kept ↔ other = run ∨ (other ∈ kept ∧ other.runId ≠ run.runId) := by
  induction kept with
  | nil => simp [enter]
  | cons old rest ih =>
    obtain ⟨fresh, ids⟩ := List.nodup_cons.mp ids
    rw [enter]
    split
    · rename_i same
      have elsewhere (member : other ∈ rest) : other.runId ≠ run.runId := by
        rw [← same]
        exact fun equal => fresh (List.mem_map.mpr ⟨other, member, equal⟩)
      constructor
      · intro member
        rcases List.mem_cons.mp member with equal | behind
        · exact Or.inl equal
        · exact Or.inr ⟨List.mem_cons_of_mem _ behind, elsewhere behind⟩
      · rintro (equal | ⟨member, apart⟩)
        · exact equal ▸ List.mem_cons_self
        · rcases List.mem_cons.mp member with equal | behind
          · exact absurd (equal ▸ same) apart
          · exact List.mem_cons_of_mem _ behind
    · rename_i apart
      rw [List.mem_cons, ih ids, List.mem_cons]
      constructor
      · rintro (rfl | equal | ⟨member, elsewhere⟩)
        · exact Or.inr ⟨Or.inl rfl, apart⟩
        · exact Or.inl equal
        · exact Or.inr ⟨Or.inr member, elsewhere⟩
      · rintro (equal | ⟨rfl | member, elsewhere⟩)
        · exact Or.inr (Or.inl equal)
        · exact Or.inl rfl
        · exact Or.inr (Or.inr ⟨member, elsewhere⟩)

theorem nodup_enter (run : RunSummary) {kept : List RunSummary}
    (ids : (kept.map (·.runId)).Nodup) : ((enter run kept).map (·.runId)).Nodup := by
  induction kept with
  | nil => simp [enter]
  | cons old rest ih =>
    obtain ⟨fresh, later⟩ := List.nodup_cons.mp ids
    rw [enter]
    split
    · rename_i same
      rw [List.map_cons, ← same]
      exact ids
    · rename_i apart
      refine List.nodup_cons.mpr ⟨fun present => ?_, ih later⟩
      obtain ⟨other, member, same⟩ := List.mem_map.mp present
      rcases (mem_enter_iff later).mp member with rfl | ⟨member, -⟩
      · exact apart same.symm
      · exact fresh (same ▸ List.mem_map_of_mem member)

/-- The ledger keeps the last run of each id. -/
theorem keeps_saved (runs : List RunSummary) : Keeps (History.saved Ledger runs).runs runs := by
  induction runs using List.reverseRecOn with
  | nil => exact Keeps.nil
  | append_singleton runs run ih =>
    rw [History.saved_append]
    exact ih.save (nodup_enter run ih.ids) fun other => mem_enter_iff ih.ids

end Ledger

/-! The table. -/

/-- A run that a row can hold: its times exist, and its counts fit into machine words. -/
structure RunSummary.Proper (run : RunSummary) : Prop where
  started : run.started.Proper
  completedSteps : run.completedSteps < Text.countLimit
  totalSteps : run.totalSteps < Text.countLimit

theorem wordCount_signedWord {n : Nat} (fits : n < Text.countLimit) :
    wordCount (signedWord n) = n := by
  rw [wordCount, signedWord, Int.bmod_emod, Int.emod_eq_of_lt (by omega) (by omega),
    Int.toNat_natCast]

/-- A run is read from its row as it was written. -/
theorem RunRow.summary_ofSummary {run : RunSummary} (proper : run.Proper) :
    (RunRow.ofSummary run).summary = run := by
  have status : (Status.ofName? run.status.name).getD .pending = run.status := by
    cases run.status <;> rfl
  simp only [ofSummary, summary, status, wordCount_signedWord proper.completedSteps,
    wordCount_signedWord proper.totalSteps]

namespace RunTable

/-- The table keeps the last run of each id. -/
theorem keeps_saved {runs : List RunSummary} (proper : ∀ run ∈ runs, run.Proper) :
    Keeps ((History.saved RunTable runs).rows.map RunRow.summary) runs := by
  induction runs using List.reverseRecOn with
  | nil => exact Keeps.nil
  | append_singleton runs run ih =>
    have keeps := ih fun other member => proper other (List.mem_append_left _ member)
    have written := RunRow.summary_ofSummary (proper run (by simp))
    have rows : (History.saved RunTable (runs ++ [run])).rows.map RunRow.summary =
        ((History.saved RunTable runs).rows.map RunRow.summary).filter
          (fun other => other.runId ≠ run.runId) ++ [run] := by
      rw [History.saved_append, List.filter_map]
      simp only [History.save, List.map_append, List.map_cons, List.map_nil, written]
      rfl
    rw [rows]
    refine keeps.save ?_ fun other => ?_
    · rw [List.map_append, List.nodup_append]
      refine ⟨keeps.ids.sublist (List.filter_sublist.map _), List.pairwise_singleton _ _, ?_⟩
      intro id present other last
      obtain ⟨old, member, rfl⟩ := List.mem_map.mp present
      rw [List.map_singleton, List.mem_singleton] at last
      rw [last]
      simpa using (List.mem_filter.mp member).2
    · rw [List.mem_append, List.mem_singleton, List.mem_filter, or_comm, decide_eq_true_eq]

theorem load?_eq (table : RunTable) (runId : String) : History.load? table runId =
    (table.rows.map RunRow.summary).find? fun run => run.runId = runId := by
  rw [List.find?_map]
  rfl

theorem jobs_eq (table : RunTable) : History.jobs table =
    History.distinct ((table.rows.map RunRow.summary).map (·.jobName)) := by
  rw [List.map_map]
  rfl

/-- The runs of a job, in some order. -/
theorem list_perm (table : RunTable) (job : String) : (History.list table job).Perm
    ((table.rows.map RunRow.summary).filter fun run => run.jobName = job) := by
  rw [List.filter_map]
  exact (List.mergeSort_perm _ _).map _

/-- Rows are listed in the order of the texts of their times. -/
theorem list_pairwise (table : RunTable) (job : String) :
    (History.list table job).Pairwise fun a b => b.started.text ≤ a.started.text :=
  List.pairwise_map.mpr (Calendar.pairwise_descending (fun row : RunRow => row.started.text) _)

end RunTable

/-! Both. -/

namespace History

/-- Runs from the newest to the oldest. -/
def NewestFirst (runs : List RunSummary) : Prop :=
  runs.Pairwise fun a b => b.started.rank ≤ a.started.rank

theorem newestFirst_pairwise (runs : List RunSummary) : NewestFirst (newestFirst runs) :=
  Calendar.pairwise_descending (fun run : RunSummary => run.started.rank) runs

/-- The lists differ in the order of runs that began at the same time, and in nothing else. -/
structure SameButTies (runs others : List RunSummary) : Prop where
  perm : runs.Perm others
  times : runs.map (·.started) = others.map (·.started)

/-- The same runs, from the newest to the oldest. -/
theorem sameButTies_of_perm {runs others : List RunSummary} (perm : runs.Perm others)
    (proper : ∀ run ∈ runs, run.started.Proper) (sorted : NewestFirst runs)
    (sortedToo : NewestFirst others) : SameButTies runs others := by
  have times : (runs.map (·.started)).Pairwise fun a b => b.rank ≤ a.rank :=
    List.pairwise_map.mpr sorted
  have timesToo : (others.map (·.started)).Pairwise fun a b => b.rank ≤ a.rank :=
    List.pairwise_map.mpr sortedToo
  refine ⟨perm, (perm.map _).eq_of_pairwise ?_ times timesToo⟩
  intro time other present presentToo first second
  obtain ⟨run, member, rfl⟩ := List.mem_map.mp present
  obtain ⟨twin, memberToo, rfl⟩ := List.mem_map.mp presentToo
  exact Calendar.DateTime.eq_of_rank_eq (proper run member)
    (proper twin (perm.mem_iff.mpr memberToo)) (Int.le_antisymm second first)

/-- What a ledger and a table answer about the same runs. -/
structure Agree (runs : List RunSummary) (ledger : Ledger) (table : RunTable) : Prop where
  /-- The run of an id is the one that was saved last. -/
  load (runId : String) : load? ledger runId = lastSaved? runs runId ∧
    load? table runId = lastSaved? runs runId
  /-- Each job once, in order. -/
  jobs : jobs ledger = jobs table ∧ (jobs ledger).Pairwise (· < ·) ∧
    ∀ job, job ∈ jobs ledger ↔ ∃ run, lastSaved? runs run.runId = some run ∧ run.jobName = job
  /-- The runs of a job, the newest first. -/
  list (job : String) : NewestFirst (list ledger job) ∧ NewestFirst (list table job) ∧
    SameButTies (list ledger job) (list table job) ∧ (list ledger job).Nodup ∧
    ∀ run, run ∈ list ledger job ↔ lastSaved? runs run.runId = some run ∧ run.jobName = job

/-- A ledger and a table keep the same history. -/
theorem backends_agree (runs : List RunSummary) (proper : ∀ run ∈ runs, run.Proper) :
    Agree runs (saved Ledger runs) (saved RunTable runs) := by
  have keeps := Ledger.keeps_saved runs
  have keepsToo := RunTable.keeps_saved proper
  have perm := keeps.perm keepsToo
  have started (run : RunSummary) (kept : run ∈ (saved Ledger runs).runs) : run.started.Proper :=
    (proper run (mem_of_lastSaved? ((keeps.members run).mp kept)).1).started
  refine ⟨fun runId => ⟨keeps.find? runId, ?_⟩, ⟨?_, ?_, fun job => ?_⟩, fun job => ?_⟩
  · rw [RunTable.load?_eq, keepsToo.find?]
  · rw [RunTable.jobs_eq]
    exact distinct_congr fun name => (perm.map _).mem_iff
  · exact (distinct_spec _).1
  · rw [show History.jobs (saved Ledger runs) =
      distinct ((saved Ledger runs).runs.map (·.jobName)) from rfl, (distinct_spec _).2,
      List.mem_map]
    simp only [keeps.members]
  · have ledgerPerm : (History.list (saved Ledger runs) job).Perm
        ((saved Ledger runs).runs.filter fun run => run.jobName = job) := List.mergeSort_perm _ _
    have tablePerm := (saved RunTable runs).list_perm job
    have same := (ledgerPerm.trans (perm.filter _)).trans tablePerm.symm
    have members (run : RunSummary) : run ∈ History.list (saved Ledger runs) job ↔
        run ∈ (saved Ledger runs).runs ∧ run.jobName = job := by
      rw [ledgerPerm.mem_iff, List.mem_filter, decide_eq_true_eq]
    have newest : NewestFirst (History.list (saved Ledger runs) job) := newestFirst_pairwise _
    have properOf (run : RunSummary) (member : run ∈ History.list (saved Ledger runs) job) :
        run.started.Proper := started run ((members run).mp member).1
    have newestToo : NewestFirst (History.list (saved RunTable runs) job) :=
      ((saved RunTable runs).list_pairwise job).imp_of_mem fun memberA memberB ordered =>
        (Calendar.DateTime.text_le_text_iff (properOf _ (same.mem_iff.mpr memberB))
          (properOf _ (same.mem_iff.mpr memberA))).mp ordered
    refine ⟨newest, newestToo, sameButTies_of_perm same properOf newest newestToo,
      ledgerPerm.nodup_iff.mpr (keeps.nodup.filter _), fun run => ?_⟩
    rw [members, keeps.members]

/-- A run of a job, so many nanoseconds after midnight. -/
def shortRun (runId job : String) (nanosecond : Nat) : RunSummary where
  runId := runId
  pipelineName := "weather"
  jobName := job
  status := .failed
  started := ⟨⟨2024, 2, 29⟩, ⟨0, 0, 0, nanosecond⟩⟩
  ended := none
  artifact := none
  error := some "no data"
  completedSteps := 1
  totalSteps := 3

/-- The first run is saved again under another job. -/
def movedRuns : List RunSummary :=
  [shortRun "1" "hamburg" 0, shortRun "2" "berlin" 500000000, shortRun "3" "berlin" 0,
    shortRun "1" "berlin" 500000000]

theorem shortRun_proper (runId job : String) {nanosecond : Nat} (fits : nanosecond < 1000000000) :
    (shortRun runId job nanosecond).Proper := by
  have date : Calendar.Date.Proper ⟨2024, 2, 29⟩ := ⟨by decide, by rfl⟩
  have clock : Calendar.Clock.Proper ⟨0, 0, 0, nanosecond⟩ :=
    ⟨(by decide : 0 < 24), (by decide : 0 < 60), (by decide : 0 < 60), Or.inl fits⟩
  have one : 1 < Text.countLimit := by decide
  have three : 3 < Text.countLimit := by decide
  exact ⟨⟨date, clock⟩, one, three⟩

theorem backends_agree_movedRuns :
    (∀ run ∈ movedRuns, run.Proper) ∧
      Agree movedRuns (saved Ledger movedRuns) (saved RunTable movedRuns) ∧
      (load? (saved Ledger movedRuns) "1").map (·.jobName) = some "berlin" ∧
      (load? (saved RunTable movedRuns) "1").map (·.jobName) = some "berlin" := by
  have proper : ∀ run ∈ movedRuns, run.Proper := by
    intro run member
    simp only [movedRuns, List.mem_cons, List.not_mem_nil, or_false] at member
    rcases member with rfl | rfl | rfl | rfl <;> exact shortRun_proper _ _ (by decide)
  exact ⟨proper, backends_agree movedRuns proper, by rfl, by rfl⟩

end History

end Newsreel
