import Mathlib.Data.List.Perm.Basic
import Newsreel.Proofs.History.Backends

/-!
The latest runs.

A history is asked for its latest runs, of one job or of all. Without a job, the lists of all jobs
are put together; since the jobs part the runs among them, nothing is lost and nothing comes twice,
and what is shown after sorting is the top of all runs. With a job, a ledger shows the top of its
runs too. A table orders them by the texts of their times, which is the order of the times as long
as all years have four digits.
-/

namespace Newsreel

/-- So many of some runs, or all if there are fewer, are shown from the greatest key to the least,
and none with a greater key is left out. -/
structure IsTop {β : Type} [LE β] (key : RunSummary → β) (limit : Nat)
    (all shown : List RunSummary) : Prop where
  length : shown.length = min limit all.length
  ids : (shown.map (·.runId)).Nodup
  members : shown ⊆ all
  ordered : shown.Pairwise fun a b => key b ≤ key a
  topmost : ∀ run ∈ all, run ∉ shown → ∀ other ∈ shown, key run ≤ key other

/-- The front of a sorted list is its top. -/
theorem isTop_take {β : Type} [LE β] {key : RunSummary → β} {all sorted : List RunSummary}
    (perm : sorted.Perm all) (ids : (all.map (·.runId)).Nodup)
    (ordered : sorted.Pairwise fun a b => key b ≤ key a) (limit : Nat) :
    IsTop key limit all (sorted.take limit) := by
  have front := List.take_sublist limit sorted
  refine ⟨?_, ?_, fun run member => ?_, ordered.sublist front, fun run member absent other shown => ?_⟩
  · rw [List.length_take, perm.length_eq]
  · exact ((perm.map _).nodup_iff.mpr ids).sublist (front.map _)
  · exact perm.mem_iff.mp (front.subset member)
  · have behind : run ∈ sorted.drop limit := by
      have somewhere := perm.mem_iff.mpr member
      rw [← List.take_append_drop limit sorted, List.mem_append] at somewhere
      exact somewhere.resolve_left absent
    rw [← List.take_append_drop limit sorted, List.pairwise_append] at ordered
    exact ordered.2.2 other shown run behind

namespace History

/-- The runs of a job. -/
def ofJob (job : String) (runs : List RunSummary) : List RunSummary :=
  runs.filter fun run => run.jobName = job

/-! Jobs part the runs. -/

/-- The runs of some different jobs, one job after the other, are those whose job is among them. -/
theorem flatMap_ofJob_perm (runs : List RunSummary) {jobs : List String} (nodup : jobs.Nodup) :
    (jobs.flatMap fun job => ofJob job runs).Perm
      (runs.filter fun run => run.jobName ∈ jobs) := by
  induction jobs with
  | nil => simp
  | cons job jobs ih =>
    obtain ⟨fresh, nodup⟩ := List.nodup_cons.mp nodup
    have mine : (runs.filter fun run => run.jobName ∈ job :: jobs).filter
        (fun run => run.jobName = job) = ofJob job runs := by
      rw [List.filter_filter]
      refine List.filter_congr fun run _ => ?_
      by_cases same : run.jobName = job <;> simp [same]
    have others : (runs.filter fun run => run.jobName ∈ job :: jobs).filter
        (fun run => !decide (run.jobName = job)) = runs.filter fun run => run.jobName ∈ jobs := by
      rw [List.filter_filter]
      refine List.filter_congr fun run _ => ?_
      by_cases same : run.jobName = job <;> simp [same, fresh]
    have parts := List.filter_append_perm (fun run => decide (run.jobName = job))
      (runs.filter fun run => run.jobName ∈ job :: jobs)
    rw [mine, others] at parts
    exact ((ih nodup).append_left (ofJob job runs)).trans parts

variable {σ : Type} [History σ]

/-- A history holds some runs: each id once, and each job with the list of its runs. -/
structure Holds (history : σ) (runs : List RunSummary) : Prop where
  ids : (runs.map (·.runId)).Nodup
  list (job : String) : (list history job).Perm (ofJob job runs)
  nodup : (jobs history).Nodup
  jobs (job : String) : job ∈ jobs history ↔ job ∈ runs.map (·.jobName)

namespace Holds

variable {history : σ} {runs : List RunSummary}

theorem ids_ofJob (holds : Holds history runs) (job : String) :
    ((ofJob job runs).map (·.runId)).Nodup :=
  holds.ids.sublist (List.filter_sublist.map _)

/-- Putting the lists of the jobs together neither drops nor repeats a run. -/
theorem listAll_perm (holds : Holds history runs) : (listAll history).Perm runs := by
  have named (run : RunSummary) (member : run ∈ runs) : run.jobName ∈ History.jobs history :=
    (holds.jobs _).mpr (List.mem_map_of_mem member)
  have all : (runs.filter fun run => run.jobName ∈ History.jobs history) = runs :=
    List.filter_eq_self.mpr fun run member => decide_eq_true (named run member)
  have lists := List.Perm.flatMap_left (History.jobs history) fun job _ => holds.list job
  have jobs := flatMap_ofJob_perm runs holds.nodup
  rw [all] at jobs
  exact (List.mergeSort_perm _ _).trans (lists.trans jobs)

theorem isTop_all (holds : Holds history runs) (limit : Nat) :
    IsTop (·.started.rank) limit runs (latest history none limit) :=
  isTop_take holds.listAll_perm holds.ids (newestFirst_pairwise _) limit

theorem isTop_job {β : Type} [LE β] {key : RunSummary → β} (holds : Holds history runs)
    {job : String} (ordered : (History.list history job).Pairwise fun a b => key b ≤ key a)
    (limit : Nat) : IsTop key limit (ofJob job runs) (latest history (some job) limit) :=
  isTop_take (holds.list job) (holds.ids_ofJob job) ordered limit

end Holds

theorem nodup_distinct (names : List String) : (distinct names).Nodup :=
  (distinct_spec names).1.imp fun less => Std.ne_of_lt less

end History

/-! Ids. -/

theorem Ledger.nodup_saved (runs : List RunSummary) :
    ((History.saved Ledger runs).runs.map (·.runId)).Nodup :=
  (keeps_saved runs).ids

theorem Ledger.holds {ledger : Ledger} (ids : (ledger.runs.map (·.runId)).Nodup) :
    History.Holds ledger ledger.runs where
  ids := ids
  list _ := List.mergeSort_perm _ _
  nodup := History.nodup_distinct _
  jobs _ := (History.distinct_spec _).2 _

namespace RunTable

/-- The runs that the rows stand for. -/
def runs (table : RunTable) : List RunSummary :=
  table.rows.map RunRow.summary

theorem nodup_save {table : RunTable} (ids : (table.runs.map (·.runId)).Nodup)
    (run : RunSummary) : ((History.save table run).runs.map (·.runId)).Nodup := by
  have split : (History.save table run).runs.map (·.runId) =
      (table.runs.map (·.runId)).filter (fun runId => runId ≠ run.runId) ++ [run.runId] := by
    simp only [runs, History.save, List.map_append, List.map_map, List.filter_map]
    rfl
  rw [split, List.nodup_append]
  refine ⟨ids.filter _, List.nodup_singleton _, fun id kept last new => ?_⟩
  rw [List.mem_singleton.mp new]
  simpa using (List.mem_filter.mp kept).2

theorem nodup_saved (runs : List RunSummary) :
    ((History.saved RunTable runs).runs.map (·.runId)).Nodup := by
  induction runs using List.reverseRecOn with
  | nil => exact List.nodup_nil
  | append_singleton runs run ih =>
    rw [History.saved_append]
    exact nodup_save ih run

theorem holds {table : RunTable} (ids : (table.runs.map (·.runId)).Nodup) :
    History.Holds table table.runs where
  ids := ids
  list job := table.list_perm job
  nodup := by
    rw [jobs_eq]
    exact History.nodup_distinct _
  jobs job := by
    rw [jobs_eq]
    exact (History.distinct_spec _).2 job

/-- Rows whose years have four digits are listed in the order of their times. -/
theorem list_newestFirst {table : RunTable} {job : String}
    (proper : ∀ run ∈ History.ofJob job table.runs, run.started.Proper) :
    History.NewestFirst (History.list table job) := by
  have properOf (run : RunSummary) (listed : run ∈ History.list table job) : run.started.Proper :=
    proper run ((table.list_perm job).mem_iff.mp listed)
  exact (table.list_pairwise job).imp_of_mem fun first second ordered =>
    (Calendar.DateTime.text_le_text_iff (properOf _ second) (properOf _ first)).mp ordered

end RunTable

namespace History

/-- What is shown is the top of the runs: of all runs, and in a ledger also of a job's. A table shows
the top of a job's runs by the texts of their times, so by their times where all years have four
digits. -/
theorem latest_isTop (ledger : Ledger) (table : RunTable)
    (ids : (ledger.runs.map (·.runId)).Nodup) (idsToo : (table.runs.map (·.runId)).Nodup)
    (limit : Nat) (job : String) :
    ((listAll ledger).Perm ledger.runs ∧
      IsTop (·.started.rank) limit ledger.runs (latest ledger none limit) ∧
      IsTop (·.started.rank) limit (ofJob job ledger.runs) (latest ledger (some job) limit)) ∧
    ((listAll table).Perm table.runs ∧
      IsTop (·.started.rank) limit table.runs (latest table none limit) ∧
      IsTop (·.started.text) limit (ofJob job table.runs) (latest table (some job) limit) ∧
      ((∀ run ∈ ofJob job table.runs, run.started.Proper) →
        IsTop (·.started.rank) limit (ofJob job table.runs) (latest table (some job) limit))) := by
  have holds := Ledger.holds ids
  have holdsToo := RunTable.holds idsToo
  refine ⟨⟨holds.listAll_perm, holds.isTop_all limit, ?_⟩,
    holdsToo.listAll_perm, holdsToo.isTop_all limit, ?_, fun proper => ?_⟩
  · exact holds.isTop_job (newestFirst_pairwise _) limit
  · exact holdsToo.isTop_job (table.list_pairwise job) limit
  · exact holdsToo.isTop_job (RunTable.list_newestFirst proper) limit

theorem latest_isTop_movedRuns :
    IsTop (·.started.rank) 2 (saved RunTable movedRuns).runs
        (latest (saved RunTable movedRuns) none 2) ∧
      IsTop (·.started.rank) 2 (ofJob "berlin" (saved RunTable movedRuns).runs)
        (latest (saved RunTable movedRuns) (some "berlin") 2) ∧
      (ofJob "berlin" (saved RunTable movedRuns).runs).length = 3 := by
  have shown := latest_isTop (saved Ledger movedRuns) (saved RunTable movedRuns)
    (Ledger.nodup_saved _) (RunTable.nodup_saved _) 2 "berlin"
  refine ⟨shown.2.2.1, shown.2.2.2.2 fun run member => ?_, by decide +kernel⟩
  have rows : ofJob "berlin" (saved RunTable movedRuns).runs =
      [shortRun "2" "berlin" 500000000, shortRun "3" "berlin" 0,
        shortRun "1" "berlin" 500000000] := by decide +kernel
  rw [rows] at member
  simp only [List.mem_cons, List.not_mem_nil, or_false] at member
  rcases member with rfl | rfl | rfl <;> exact (shortRun_proper _ _ (by decide)).started

/-- A run of a year with five digits, whose text begins with a sign. -/
def distantRun : RunSummary :=
  { shortRun "2" "berlin" 0 with started := ⟨⟨10000, 1, 1⟩, ⟨0, 0, 0, 0⟩⟩ }

/-- A table that holds the runs of one job. -/
def distantTable : RunTable :=
  saved RunTable [shortRun "1" "berlin" 0, distantRun]

theorem distantRun_left_out :
    latest distantTable (some "berlin") 1 = [shortRun "1" "berlin" 0] ∧
      distantRun ∈ ofJob "berlin" distantTable.runs ∧
      (shortRun "1" "berlin" 0).started.rank < distantRun.started.rank ∧
      ¬ IsTop (·.started.rank) 1 (ofJob "berlin" distantTable.runs)
        (latest distantTable (some "berlin") 1) := by
  have sorted : RunTable.descending (distantTable.rows.filter fun row => row.jobName = "berlin") =
      distantTable.rows := by
    have all : (distantTable.rows.filter fun row => row.jobName = "berlin") = distantTable.rows := by
      decide +kernel
    rw [all]
    exact List.mergeSort_of_pairwise (by decide +kernel)
  have shown : latest distantTable (some "berlin") 1 = [shortRun "1" "berlin" 0] := by
    have listed : latest distantTable (some "berlin") 1 =
        ((RunTable.descending (distantTable.rows.filter fun row => row.jobName = "berlin")).map
          RunRow.summary).take 1 := rfl
    rw [listed, sorted]
    decide +kernel
  have held : distantRun ∈ ofJob "berlin" distantTable.runs := by decide +kernel
  have later : (shortRun "1" "berlin" 0).started.rank < distantRun.started.rank := by
    decide +kernel
  refine ⟨shown, held, later, fun top => ?_⟩
  have least := top.topmost distantRun held (by rw [shown]; decide +kernel)
    (shortRun "1" "berlin" 0) (by rw [shown]; exact List.mem_singleton_self _)
  exact absurd least (Int.not_le.mpr later)

end History

end Newsreel
