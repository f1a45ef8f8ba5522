import Newsreel.Proofs.Calendar.Written
import Newsreel.Proofs.Context.Bindings
import Newsreel.Proofs.Transform.Stops

/-!
Transforms of dates.

All of them read the date at a key in a pattern. A date that has been written is read back by the
pattern of written dates, so from there on the transforms go by the same date as they did before:
writing it again changes nothing, and its weekday is the one that it had.
-/

namespace Newsreel.Transform

open Calendar

/-- The format in which dates are written. -/
def writtenFormat : Value := .string Date.pattern

/-- The date at a key. -/
def dateAt (context : Context) (key : String) (scope : Scope) (format : Value) :
    Except StepError Date := do
  let value ← textAt context key scope
  dateOf value (← context.formatText scope format)

variable {chance : Chance} {context before after : Context} {key : String} {scope : Scope}
  {format : Value} {date : Date}

/-- What is made of the date at a key. -/
theorem map_dateAt (write : Date → Value) : (do
      let value ← textAt context key scope
      let date ← dateOf value (← context.formatText scope format)
      return write date) = (dateAt context key scope format).map write := by
  rw [dateAt]
  cases textAt context key scope with
  | error error => rfl
  | ok value =>
    cases context.formatText scope format with
    | error error => rfl
    | ok pattern =>
      simp only [bind, Except.bind]
      cases dateOf value pattern <;> rfl

theorem outcome_dateFormat : outcome chance context key scope (.dateFormat format) =
    (dateAt context key scope format).map fun date => .string date.text := map_dateAt _

theorem outcome_dateWeekday : outcome chance context key scope (.dateWeekday format) =
    (dateAt context key scope format).map fun date => .string (weekdayName date) := map_dateAt _

theorem outcome_dateFormat_ok_iff {written : Value} :
    outcome chance context key scope (.dateFormat format) = .ok written ↔
      ∃ date, dateAt context key scope format = .ok date ∧ .string date.text = written := by
  rw [outcome_dateFormat]
  cases dateAt context key scope format <;> simp [Except.map]

/-! The date at a key. -/

theorem textAt_ok_iff {text : String} :
    textAt context key scope = .ok text ↔ context.get key scope = .ok (.string text) := by
  rw [textAt]
  cases context.get key scope with
  | error error => simp [bind, Except.bind]
  | ok value => cases value <;> simp [bind, Except.bind, pure, Except.pure]

theorem dateOf_ok_iff {value pattern : String} :
    dateOf value pattern = .ok date ↔ readDate value pattern = .ok date := by
  rw [dateOf]
  cases readDate value pattern <;> simp

theorem dateOf_text (valid : date.Valid) : dateOf date.text Date.pattern = .ok date :=
  dateOf_ok_iff.mpr valid.readDate_text

theorem formatText_writtenFormat (context : Context) (scope : Scope) :
    context.formatText scope writtenFormat = .ok Date.pattern := by
  have plain : (Date.pattern.toList.any fun c => c = '\x7b' || c = '\x7d') = false := by decide
  rw [Context.formatText, Context.format, writtenFormat, Context.formatWithKey,
    Context.formatTemplate, if_neg (Bool.eq_false_iff.mp plain)]
  rfl

theorem valid_of_dateAt (found : dateAt context key scope format = .ok date) : date.Valid := by
  obtain ⟨value, -, found⟩ := Outcome.bind_ok_iff.mp found
  obtain ⟨pattern, -, found⟩ := Outcome.bind_ok_iff.mp found
  exact valid_of_readDate (dateOf_ok_iff.mp found)

/-- A date that has been written is the date at its key. -/
theorem dateAt_of_get (valid : date.Valid)
    (held : context.get key scope = .ok (.string date.text)) :
    dateAt context key scope writtenFormat = .ok date := by
  rw [dateAt, textAt_ok_iff.mpr held, formatText_writtenFormat]
  exact dateOf_text valid

theorem exists_text_of_dateAt (found : dateAt context key scope writtenFormat = .ok date) :
    ∃ text, context.get key scope = .ok (.string text) ∧
      readDate text Date.pattern = .ok date := by
  obtain ⟨text, held, found⟩ := Outcome.bind_ok_iff.mp found
  rw [formatText_writtenFormat] at found
  exact ⟨text, textAt_ok_iff.mp held, dateOf_ok_iff.mp found⟩

/-! One key. -/

/-- Work on a key that makes no choice is done once its value is written. -/
theorem applyKey_ok_iff {op : TransformOp} (still : countDraw op = pure ()) {target : String} :
    applyKey chance op key target scope before = (.ok (), after) ↔
      ∃ value, outcome chance before key scope op = .ok value ∧
        before.insert target value scope = (.ok (), after) := by
  rw [applyKey, Attempt.bind_ok_iff]
  constructor
  · rintro ⟨value, between, looked, wrote⟩
    obtain ⟨found, rfl⟩ := Prod.mk.injEq _ _ _ _ ▸ looked
    obtain ⟨⟨⟩, behind, wrote, drawn⟩ := Attempt.bind_ok_iff.mp wrote
    rw [still] at drawn
    cases drawn
    exact ⟨value, found, wrote⟩
  · rintro ⟨value, found, wrote⟩
    refine ⟨value, before, Prod.ext found rfl, Attempt.bind_ok_iff.mpr ⟨(), after, wrote, ?_⟩⟩
    rw [still]
    rfl

/-- A date lies in the data at a key, as it is written. -/
def Dated (context : Context) (key : String) (scope : Scope) (date : Date) : Prop :=
  date.Valid ∧ ∃ segments, context.locate key scope = .ok (.data segments) ∧
    context.data.at? segments = some (.string date.text)

theorem Dated.get (dated : Dated context key scope date) :
    context.get key scope = .ok (.string date.text) := by
  obtain ⟨-, segments, located, held⟩ := dated
  rw [Context.get_data located, held]

/-- Where a date is written, it lies. -/
theorem dated_of_insert (valid : date.Valid)
    (wrote : before.insert key (.string date.text) scope = (.ok (), after)) :
    ∃ segments, before.locate key scope = .ok (.data segments) ∧
      after = { before with
        data := (Value.put key (.string date.text) segments before.data).2 } ∧
      Dated after key scope date := by
  by_cases inData : ∃ segments, before.locate key scope = .ok (.data segments)
  · obtain ⟨segments, located⟩ := inData
    rw [Context.insert_data located] at wrote
    have through := congrArg Prod.fst wrote
    obtain rfl := congrArg Prod.snd wrote
    exact ⟨segments, located, rfl, valid, segments,
      (Context.locate_congr rfl rfl key scope).trans located, Value.at?_put through⟩
  · obtain ⟨error, refused⟩ := Context.insert_elsewhere (not_exists.mp inData) (.string date.text)
    rw [refused] at wrote
    cases wrote

/-- Work that writes the date at a key in its place. -/
def setDate (chance : Chance) (key : String) (scope : Scope) : Edit Unit :=
  applyKey chance (.dateFormat writtenFormat) key key scope

theorem setDate_ok_iff : setDate chance key scope before = (.ok (), after) ↔
    ∃ date, dateAt before key scope writtenFormat = .ok date ∧
      before.insert key (.string date.text) scope = (.ok (), after) := by
  rw [setDate, applyKey_ok_iff rfl]
  simp only [outcome_dateFormat_ok_iff]
  constructor
  · rintro ⟨_, ⟨date, found, rfl⟩, wrote⟩
    exact ⟨date, found, wrote⟩
  · rintro ⟨date, found, wrote⟩
    exact ⟨_, ⟨date, found, rfl⟩, wrote⟩

/-- A date that lies at a key is written as it lies there. -/
theorem Dated.idle (dated : Dated context key scope date) (chance : Chance) :
    setDate chance key scope context = (.ok (), context) := by
  refine setDate_ok_iff.mpr ⟨date, dateAt_of_get dated.1 dated.get, ?_⟩
  obtain ⟨-, segments, located, held⟩ := dated
  rw [Context.insert_data located, Value.put_of_at? held]

theorem exists_dated (ran : setDate chance key scope before = (.ok (), after)) :
    ∃ date, Dated after key scope date := by
  obtain ⟨date, found, wrote⟩ := setDate_ok_iff.mp ran
  obtain ⟨-, -, -, dated⟩ := dated_of_insert (valid_of_dateAt found) wrote
  exact ⟨date, dated⟩

/-- Dates stay where they lie while other dates are written: another key leads to the same date or
to another place. -/
theorem Dated.preserved (dated : Dated context key scope date) (chance : Chance) (other : String)
    (otherScope : Scope) :
    Dated (setDate chance other otherScope context).2 key scope date := by
  rcases ran : setDate chance other otherScope context with ⟨error | ⟨⟨⟩⟩, after⟩
  · obtain rfl := applyKey_error ran
    exact dated
  · obtain ⟨valid, segments, located, held⟩ := dated
    obtain ⟨otherDate, found, wrote⟩ := setDate_ok_iff.mp ran
    obtain ⟨text, read, reads⟩ := exists_text_of_dateAt found
    obtain ⟨places, locatedOther, rfl, -⟩ := dated_of_insert (valid_of_dateAt found) wrote
    have there : context.data.at? places = some (.string text) := by
      rw [Context.get_data locatedOther] at read
      split at read
      · next value present => rw [present, ← Except.ok.inj read]
      · cases read
    refine ⟨valid, segments, (Context.locate_congr rfl rfl key scope).trans located, ?_⟩
    rcases Value.at?_put_text other there held with ⟨rfl, same⟩ | unseen
    · have equal : otherDate = date := by
        rw [valid.readDate_text, Except.ok.injEq] at reads
        exact reads.symm
      rw [same, equal]
    · exact unseen _

/-! All keys. -/

/-- Writing dates once is enough: a second time changes nothing and comes out the same. -/
theorem setDates_again (chance : Chance) (scope : Scope) (kind : TransformKind)
    (keys : List String) (context : Context) :
    let work := apply chance scope (.mk kind keys none (.dateFormat writtenFormat))
    work (work context).2 = work context := by
  intro work
  have pieces : work = Attempt.inOrder (keys.mapIdx fun place key =>
      Attempt.annotate (.transform kind key)
        (setDate chance key (keyScope kind scope place key))) := by
    rw [show work = _ from apply_keyed rfl, applyKeys_eq_inOrder]
    simp only [Nat.zero_add]
    rfl
  rw [pieces]
  refine Attempt.inOrder_again ?_ ?_ ?_ rfl
  · intro piece member before after ran
    obtain ⟨place, within, rfl⟩ := List.mem_mapIdx.mp member
    rw [Attempt.annotate_ok_iff] at ran ⊢
    obtain ⟨date, dated⟩ := exists_dated ran
    exact dated.idle chance
  · intro piece member before after error failed
    obtain ⟨place, within, rfl⟩ := List.mem_mapIdx.mp member
    obtain ⟨source, failed, -⟩ := Attempt.annotate_error_iff.mp failed
    exact applyKey_error failed
  · intro piece member other memberOther before settled
    obtain ⟨place, within, rfl⟩ := List.mem_mapIdx.mp member
    obtain ⟨elsewhere, withinOther, rfl⟩ := List.mem_mapIdx.mp memberOther
    obtain ⟨date, dated⟩ := exists_dated (Attempt.annotate_ok_iff.mp settled)
    rw [Attempt.annotate_snd]
    exact Attempt.annotate_ok_iff.mpr ((dated.preserved chance _ _).idle chance)

/-! A weekday after a date. -/

/-- Transforms of different kinds bind a key in the same way. -/
theorem keyScope_bindsAs (kind other : TransformKind) (scope : Scope) (place : Nat) (key : String) :
    (keyScope kind scope place key).BindsAs (keyScope other scope place key) :=
  ⟨rfl, rfl, rfl⟩

theorem dateAt_bindsAs {other : Scope} (same : scope.BindsAs other) (context : Context)
    (key : String) (format : Value) :
    dateAt context key scope format = dateAt context key other format := by
  simp only [dateAt, textAt, Context.get_bindsAs same, Context.formatText_bindsAs same]

/-- A transform of a single key in its place. -/
theorem apply_single_ok_iff {kind : TransformKind} {op : TransformOp} (keyed : op.isKeyed = true)
    (still : countDraw op = pure ()) :
    apply chance scope (.mk kind [key] none op) before = (.ok (), after) ↔
      ∃ value, outcome chance before key (keyScope kind scope 0 key) op = .ok value ∧
        before.insert key value (keyScope kind scope 0 key) = (.ok (), after) := by
  have keyedSpec : (TransformSpec.mk kind [key] none op).op.isKeyed = true := keyed
  have single : apply chance scope (.mk kind [key] none op) =
      (do Attempt.annotate (.transform kind key)
            (applyKey chance op key key (keyScope kind scope 0 key))
          pure ()) := apply_keyed keyedSpec
  rw [single, Attempt.bind_ok_iff, ← applyKey_ok_iff still]
  constructor
  · rintro ⟨⟨⟩, between, ran, ended⟩
    obtain ⟨-, rfl⟩ := Attempt.pure_ok_iff.mp ended
    exact Attempt.annotate_ok_iff.mp ran
  · exact fun ran => ⟨(), after, Attempt.annotate_ok_iff.mpr ran, rfl⟩

/-- Behind a date that has been written in its place stands the same weekday as behind the value that
stood there. -/
theorem weekday_after_date {kind other : TransformKind}
    (ran : apply chance scope (.mk kind [key] none (.dateFormat format)) before =
      (.ok (), after)) :
    ∃ last, apply chance scope (.mk other [key] none (.dateWeekday writtenFormat)) after =
        (.ok (), last) ∧
      apply chance scope (.mk other [key] none (.dateWeekday format)) before = (.ok (), last) := by
  have same := keyScope_bindsAs kind other scope 0 key
  obtain ⟨_, written, wrote⟩ := (apply_single_ok_iff rfl rfl).mp ran
  obtain ⟨date, found, rfl⟩ := outcome_dateFormat_ok_iff.mp written
  obtain ⟨segments, located, rfl, dated⟩ := dated_of_insert (valid_of_dateAt found) wrote
  have through : (Value.put key (.string date.text) segments before.data).1 = .ok () := by
    rw [Context.insert_data located] at wrote
    exact congrArg Prod.fst wrote
  have leads (data : Value) : ({ before with data } : Context).locate key
      (keyScope other scope 0 key) = .ok (.data segments) := by
    rw [← Context.locate_bindsAs same, Context.locate_congr rfl rfl key]
    exact located
  let name : Value := .string (weekdayName date)
  refine ⟨{ before with data := (Value.put key name segments before.data).2 },
    (apply_single_ok_iff rfl rfl).mpr ⟨name, ?_, ?_⟩,
    (apply_single_ok_iff rfl rfl).mpr ⟨name, ?_, ?_⟩⟩
  · rw [outcome_dateWeekday, ← dateAt_bindsAs same, dateAt_of_get dated.1 dated.get]
    rfl
  · rw [Context.insert_data (leads _), Value.put_put,
      Value.put_outcome key name (.string date.text), through]
  · rw [outcome_dateWeekday, ← dateAt_bindsAs same, found]
    rfl
  · rw [Context.insert_data (leads before.data),
      Value.put_outcome key name (.string date.text), through]

/-- The transforms of dates agree. A date that is read, whatever its year, is read back from the text
in which it is written; so wherever that text stands, it is the text of the date at that place, and
the weekday there is that of the value it comes from. Writing the dates at any keys a second time
changes nothing, and the weekday of a date written in its place is that of what stood there. -/
theorem dates_agree (chance : Chance) :
    (∀ value format date, dateOf value format = .ok date →
      date.Valid ∧ dateOf date.text Date.pattern = .ok date) ∧
    (∀ date : Date, date.Valid → dateOf date.text Date.pattern = .ok date) ∧
    (∀ context key scope format written,
      outcome chance context key scope (.dateFormat format) = .ok written →
      ∀ after path reader, after.get path reader = .ok written →
        outcome chance after path reader (.dateFormat writtenFormat) = .ok written ∧
          outcome chance after path reader (.dateWeekday writtenFormat) =
            outcome chance context key scope (.dateWeekday format)) ∧
    (∀ scope kind keys context,
      let work := apply chance scope (.mk kind keys none (.dateFormat writtenFormat))
      work (work context).2 = work context) ∧
    (∀ scope kind other key format before after,
      apply chance scope (.mk kind [key] none (.dateFormat format)) before = (.ok (), after) →
      ∃ last, apply chance scope (.mk other [key] none (.dateWeekday writtenFormat)) after =
          (.ok (), last) ∧
        apply chance scope (.mk other [key] none (.dateWeekday format)) before =
          (.ok (), last)) := by
  refine ⟨fun value format date read => ?_, fun date => dateOf_text, ?_,
    fun scope kind keys context => setDates_again chance scope kind keys context,
    fun scope kind other key format before after => weekday_after_date⟩
  · have valid := valid_of_readDate (dateOf_ok_iff.mp read)
    exact ⟨valid, dateOf_text valid⟩
  · intro context key scope format written wrote after path reader held
    obtain ⟨date, found, rfl⟩ := outcome_dateFormat_ok_iff.mp wrote
    have again := dateAt_of_get (valid_of_dateAt found) held
    rw [outcome_dateFormat, outcome_dateWeekday, outcome_dateWeekday, again, found]
    exact ⟨rfl, rfl⟩

/-- Years before the first and beyond four digits. -/
theorem dates_agree_distant :
    dateOf "15.03.-44" "%d.%m.%Y" = .ok ⟨-44, 3, 15⟩ ∧
      (⟨-44, 3, 15⟩ : Date).text = "-0044-03-15" ∧
      dateOf "-0044-03-15" Date.pattern = .ok ⟨-44, 3, 15⟩ ∧
      dateOf "366 of +12024" "%j of %Y" = .ok ⟨12024, 12, 31⟩ ∧
      (⟨12024, 12, 31⟩ : Date).text = "+12024-12-31" ∧
      dateOf "+12024-12-31" Date.pattern = .ok ⟨12024, 12, 31⟩ := by
  obtain ⟨readBack, -⟩ := dates_agree ⟨⟨2024, 2, 29⟩, fun _ _ => 0⟩
  have before : dateOf "15.03.-44" "%d.%m.%Y" = .ok ⟨-44, 3, 15⟩ := by rfl
  have beyond : dateOf "366 of +12024" "%j of %Y" = .ok ⟨12024, 12, 31⟩ := by rfl
  exact ⟨before, by rfl, (readBack _ _ _ before).2, beyond, by rfl, (readBack _ _ _ beyond).2⟩

end Newsreel.Transform
