import Newsreel.Proofs.Files.Directories
import Newsreel.Proofs.Media.CommandLine

/-!
How the encoder is started for a sequence.

Without a timeline, or with one that shows nothing, nothing is touched and nothing is started. Else
the audio files are joined first, if there are any, as told by a list of them; then the video is
made with the joined sound. The first start that fails is the last one, and its error is the cause
of the failure.
-/

namespace Newsreel

open Attempt

/-- What the encoder answers to starts one after the other, behind those before. -/
def Encoder.answers (encoder : Encoder) (before : List EncoderCall) :
    List EncoderCall → List (Except StepError Unit)
  | [] => []
  | call :: rest => encoder.run before call :: encoder.answers (before ++ [call]) rest

namespace EncoderCall

/-- A start that joins audio files, in the order in which the file that is read lists them. -/
def Joins (call : EncoderCall) (audios : List String) (output : String) : Prop :=
  ∃ line list, CommandLine.read call.invocation.args = some line ∧
    line.inputs = [⟨[.option "-f" "concat", .option "-safe" "0"], list⟩] ∧
    line.options = [.option "-c" "copy"] ∧ line.output = output ∧
    call.files.read list = .ok (Encoder.concatList audios)

/-- A start that makes a video of clips and of sound, if there is any. -/
def Shows (call : EncoderCall) (clips : List (Clip Float)) (audio : Option String)
    (output : String) : Prop :=
  ∃ line, CommandLine.read call.invocation.args = some line ∧
    line.inputs = clips.map (Encoder.clipInput Media.secondsText) ++
      audio.toList.map Encoder.soundInput ∧ line.output = output

end EncoderCall

namespace Files.Work

/-- What has been written can be read. -/
theorem write_read {path content : String} {before after : Files.Tree}
    (success : write path content before = (.ok (), after)) : after.read path = .ok content := by
  rw [write] at success
  split at success
  · cases success
  · next place located =>
    split at success
    · cases success
    · next notDirectory =>
      cases success
      obtain ⟨some, noNul, walked⟩ := Tree.locate_ok_iff.mp located
      have found : (before.insert place (.file content)).locate path = .ok place :=
        Tree.locate_ok_iff.mpr ⟨some, noNul, Tree.walk_insert notDirectory _ walked⟩
      rw [Tree.read, found]
      simp only [bind, Except.bind, Tree.entry?_insert (Tree.free_of_not_directory notDirectory),
        if_pos, pure, Except.pure]

end Files.Work

namespace Media

variable {surroundings : Surroundings} {context : Context} {scope : Scope} {spec : SequenceSpec}
  {timeline : Timeline Float} {world : World}

/-- Where the joined sound of a run goes. -/
def soundPath (context : Context) : String := Files.join (tempDirectory context) "audio.mp3"

/-- Where the video of a sequence goes. -/
def videoPath (surroundings : Surroundings) (context : Context) (spec : SequenceSpec) : String :=
  outputPath context.config
    (if spec.outTime.getD context.config.outTime then some surroundings.now else none)

/-- No work on the files fails: the directory of the run is made, the list of the audio files is
written, if there are any, and as soon as these are joined the directory of the video is made. -/
structure FilesSucceed (surroundings : Surroundings) (context : Context) (spec : SequenceSpec)
    (audios : List String) (world : World) (made listed ready : Files.Tree) : Prop where
  directory : Files.Work.makeDirectories (tempDirectory context) world.files = (.ok (), made)
  silent : audios = [] → listed = made
  list : audios ≠ [] →
    Files.Work.write (listPath context) (Encoder.concatList audios) made = (.ok (), listed)
  output : (audios ≠ [] →
      surroundings.encoder.run world.calls ⟨joining context, listed⟩ = .ok ()) →
    Files.Work.makeDirectories (Files.parent (videoPath surroundings context spec)) listed =
      (.ok (), ready)

/-- How the encoder is started for a timeline, behind some calls, and what comes of it. -/
structure Follows (encoder : Encoder) (kind : SequenceKind) (timeline : Timeline Float)
    (before calls : List EncoderCall) (output : String) (result : Except StepError String) :
    Prop where
  silent : timeline.audios = [] → ∃ showing, calls = [showing] ∧
    showing.Shows timeline.clips none output
  sounding : timeline.audios ≠ [] → ∃ joining sound, joining.Joins timeline.audios sound ∧
    (∀ error, encoder.run before joining = .error error → calls = [joining]) ∧
    (encoder.run before joining = .ok () → ∃ showing, calls = [joining, showing] ∧
      showing.Shows timeline.clips (some sound) output)
  succeeds : (∃ path, result = .ok path) ↔ ∀ answer ∈ encoder.answers before calls, answer = .ok ()
  path : ∀ path, result = .ok path → path = output
  fails : ∀ error, .error error ∈ encoder.answers before calls →
    result = .error (.sequence kind error) ∧ (StepError.sequence kind error).root = error.root ∧
      (error.isLayer = false → (StepError.sequence kind error).root = error)

theorem joining_joins {files : Files.Tree} {audios : List String}
    (listed : files.read (listPath context) = .ok (Encoder.concatList audios)) :
    EncoderCall.Joins ⟨joining context, files⟩ audios (soundPath context) :=
  ⟨⟨[.option "-loglevel" Encoder.logLevel],
    [⟨[.option "-f" "concat", .option "-safe" "0"], listPath context⟩], [.option "-c" "copy"],
    soundPath context⟩, listPath context, rfl, rfl, rfl, rfl, listed⟩

theorem showing_shows (context : Context) (spec : SequenceSpec) (clips : List (Clip Float))
    (audio : Option String) (output : String) (files : Files.Tree) :
    EncoderCall.Shows ⟨showing context spec clips audio output, files⟩ clips audio output :=
  ⟨_, Encoder.read_videoArgs .., rfl, rfl⟩

/-! Work that starts the encoder. -/

theorem onFiles_run {work : Files.Work Unit} {after : Files.Tree} (world : World)
    (success : work world.files = (.ok (), after)) :
    Effect.onFiles work world = (.ok (), { world with files := after }) := by
  rw [Effect.onFiles, success]

/-- A start of the encoder is put down whatever comes of it. -/
theorem encode_return_run {α : Type} (invocation : Invocation) (a : α) (world : World) :
    (do Effect.encode surroundings invocation; return a : Effect α) world =
      ((surroundings.encoder.run world.calls ⟨invocation, world.files⟩).map fun _ => a,
        { world with calls := world.calls ++ [⟨invocation, world.files⟩] }) := by
  cases answered : surroundings.encoder.run world.calls ⟨invocation, world.files⟩ with
  | error error =>
    refine (bind_run_error (?_ : _ = (Except.error error, _))).trans rfl
    rw [Effect.encode, answered]
  | ok =>
    refine (bind_run_ok (a := ()) ?_).trans rfl
    rw [Effect.encode, answered]

/-- The last piece of work: the directory of the video, and the video itself. -/
def film (surroundings : Surroundings) (context : Context) (spec : SequenceSpec)
    (clips : List (Clip Float)) (audio : Option String) : Effect String := do
  let output := videoPath surroundings context spec
  Effect.onFiles (Files.Work.makeDirectories (Files.parent output))
  Effect.encode surroundings (showing context spec clips audio output)
  return output

theorem film_run {ready : Files.Tree} (world : World) (clips : List (Clip Float))
    (audio : Option String) (opened : Files.Work.makeDirectories
      (Files.parent (videoPath surroundings context spec)) world.files = (.ok (), ready)) :
    film surroundings context spec clips audio world =
      ((surroundings.encoder.run world.calls
          ⟨showing context spec clips audio (videoPath surroundings context spec), ready⟩).map
        fun _ => videoPath surroundings context spec,
      { world with
        files := ready
        calls := world.calls ++
          [⟨showing context spec clips audio (videoPath surroundings context spec), ready⟩] }) := by
  rw [film, bind_run_ok (onFiles_run world opened)]
  exact encode_return_run _ _ { world with files := ready }

/-- Joining audio files, in the directory of a run. -/
theorem joinAudio_run {audios : List String} {listed : Files.Tree} (world : World)
    (some : audios ≠ []) (written : Files.Work.write (listPath context)
      (Encoder.concatList audios) world.files = (.ok (), listed)) :
    joinAudio surroundings context.config (tempDirectory context) audios world =
      ((surroundings.encoder.run world.calls ⟨joining context, listed⟩).map
        fun _ => Option.some (soundPath context),
      { world with files := listed, calls := world.calls ++ [⟨joining context, listed⟩] }) := by
  have audible : audios.isEmpty = false := by simpa using some
  rw [joinAudio, audible, if_neg Bool.false_ne_true]
  refine (bind_run_ok (onFiles_run world written)).trans ?_
  exact encode_return_run (joining context) _ { world with files := listed }

/-- What comes of starts of which only the last one may have failed. -/
theorem follows_of_answers {encoder : Encoder} {before calls : List EncoderCall} {output : String}
    {result : Except StepError String} (answers : List (Except StepError Unit))
    (last : Except StepError Unit)
    (silent : timeline.audios = [] → ∃ showing, calls = [showing] ∧
      showing.Shows timeline.clips none output)
    (sounding : timeline.audios ≠ [] → ∃ joining sound, joining.Joins timeline.audios sound ∧
      (∀ error, encoder.run before joining = .error error → calls = [joining]) ∧
      (encoder.run before joining = .ok () → ∃ showing, calls = [joining, showing] ∧
        showing.Shows timeline.clips (some sound) output))
    (answered : encoder.answers before calls = answers ++ [last])
    (succeeded : ∀ answer ∈ answers, answer = .ok ())
    (ended : result = (last.map fun _ => output).mapError (StepError.sequence spec.kind)) :
    Follows encoder spec.kind timeline before calls output result := by
  have failing (error : StepError) (member : .error error ∈ encoder.answers before calls) :
      last = .error error := by
    rw [answered] at member
    rcases List.mem_append.mp member with before | itself
    · cases succeeded _ before
    · exact (List.mem_singleton.mp itself).symm
  refine ⟨silent, sounding, ?_, ?_, fun error member => ⟨?_, rfl, fun bare => ?_⟩⟩
  · rw [answered, ended, List.forall_mem_append, List.forall_mem_singleton]
    cases last with
    | error cause => exact ⟨nofun, nofun⟩
    | ok => exact ⟨fun _ => ⟨succeeded, rfl⟩, fun _ => ⟨output, rfl⟩⟩
  · rintro path success
    rw [ended] at success
    cases last with
    | error cause => cases success
    | ok =>
      cases success
      rfl
  · rw [ended, failing error member]
    rfl
  · exact StepError.root_of_unlayered bare

/-- A timeline that cannot be built, or has no clips, is no timeline to show. -/
theorem timeline_error (nothing : ∀ timeline, Timeline.build binary64
      surroundings.encoder.audioDuration context scope spec = .ok timeline → timeline.clips = []) :
    ∃ error, Media.timeline surroundings context scope spec = .error error := by
  cases built : Timeline.build binary64 surroundings.encoder.audioDuration context scope spec with
  | error error => exact ⟨error, by rw [Media.timeline, built]; rfl⟩
  | ok timeline =>
    refine ⟨.invalidValue "images" .nothingToRender, ?_⟩
    rw [Media.timeline, built]
    change (if timeline.clips.isEmpty then _ else _) = _
    rw [nothing timeline built]
    rfl

theorem timeline_ok (built : Timeline.build binary64 surroundings.encoder.audioDuration context
      scope spec = .ok timeline) (some : timeline.clips ≠ []) :
    Media.timeline surroundings context scope spec = .ok timeline := by
  have shown : timeline.clips.isEmpty = false := by simpa using some
  rw [Media.timeline, built]
  change (if timeline.clips.isEmpty then _ else _) = _
  rw [shown, if_neg Bool.false_ne_true]
  rfl

theorem assemble_of_timeline
    (laid : Media.timeline surroundings context scope spec = .ok timeline) :
    assemble surroundings context scope spec world =
      ((render surroundings context spec timeline world).1.mapError (.sequence spec.kind),
        (render surroundings context spec timeline world).2) := by
  have body : (do
      let timeline ← Attempt.ofExcept (Media.timeline surroundings context scope spec)
      render surroundings context spec timeline : Effect String) world =
        render surroundings context spec timeline world :=
    bind_run_ok (ofExcept_ok_iff.mpr ⟨laid, rfl⟩)
  rw [assemble, annotate_run, body]

section Rendering

variable {made listed ready : Files.Tree}

theorem render_silent (silent : timeline.audios = [])
    (files : FilesSucceed surroundings context spec timeline.audios world made listed ready) :
    render surroundings context spec timeline world =
      film surroundings context spec timeline.clips none { world with files := listed } := by
  have made := onFiles_run world files.directory
  rw [← files.silent silent] at made
  refine (bind_run_ok made).trans (bind_run_ok (a := none) ?_)
  rw [joinAudio, silent]
  rfl

variable (audible : timeline.audios ≠ [])
  (files : FilesSucceed surroundings context spec timeline.audios world made listed ready)

include audible files

theorem render_unjoined {error : StepError}
    (failed : surroundings.encoder.run world.calls ⟨joining context, listed⟩ = .error error) :
    render surroundings context spec timeline world = (.error error,
      { world with files := listed, calls := world.calls ++ [⟨joining context, listed⟩] }) := by
  refine (bind_run_ok (onFiles_run world files.directory)).trans (bind_run_error ?_)
  refine (joinAudio_run { world with files := made } audible (files.list audible)).trans ?_
  rw [failed]
  rfl

theorem render_joined
    (joined : surroundings.encoder.run world.calls ⟨joining context, listed⟩ = .ok ()) :
    render surroundings context spec timeline world =
      film surroundings context spec timeline.clips (some (soundPath context))
        { world with files := listed, calls := world.calls ++ [⟨joining context, listed⟩] } := by
  refine (bind_run_ok (onFiles_run world files.directory)).trans (bind_run_ok ?_)
  refine (joinAudio_run { world with files := made } audible (files.list audible)).trans ?_
  rw [joined]
  rfl

end Rendering

/-- Nothing is touched and nothing is started where there is nothing to show. Else the audio files
are joined first, if there are any, in the order of their list; unless that fails, the video is made
with the joined sound, if there is any. The sequence succeeds exactly if no start of the encoder
fails, and gives the path of the video; a start that fails is the cause of the failure. -/
theorem assemble_follows (surroundings : Surroundings) (context : Context) (scope : Scope)
    (spec : SequenceSpec) (world : World) :
    ((∀ timeline, Timeline.build binary64 surroundings.encoder.audioDuration context scope spec =
        .ok timeline → timeline.clips = []) →
      ∃ error, assemble surroundings context scope spec world =
        (.error (.sequence spec.kind error), world)) ∧
    ∀ timeline made listed ready, Timeline.build binary64 surroundings.encoder.audioDuration context
        scope spec = .ok timeline → timeline.clips ≠ [] →
      FilesSucceed surroundings context spec timeline.audios world made listed ready →
      ∃ calls, (assemble surroundings context scope spec world).2.calls = world.calls ++ calls ∧
        Follows surroundings.encoder spec.kind timeline world.calls calls
          (videoPath surroundings context spec)
          (assemble surroundings context scope spec world).1 := by
  refine ⟨fun nothing => ?_, fun timeline made listed ready built some files => ?_⟩
  · obtain ⟨error, failed⟩ := timeline_error nothing
    refine ⟨error, annotate_error_iff.mpr ⟨error, ?_, rfl⟩⟩
    exact bind_run_error (ofExcept_error_iff.mpr ⟨failed, rfl⟩)
  · rw [assemble_of_timeline (timeline_ok built some)]
    by_cases silent : timeline.audios = []
    · have film := film_run { world with files := listed } timeline.clips none
        (files.output fun audible => absurd silent audible)
      rw [render_silent silent files, film]
      exact ⟨_, rfl, follows_of_answers [] _
        (fun _ => ⟨_, rfl, showing_shows context spec timeline.clips none _ ready⟩)
        (fun audible => absurd silent audible) rfl nofun rfl⟩
    · have joins := joining_joins (Files.Work.write_read (files.list silent))
      cases answered : surroundings.encoder.run world.calls ⟨joining context, listed⟩ with
      | error error =>
        rw [render_unjoined silent files answered]
        refine ⟨_, rfl, follows_of_answers [] (.error error) (fun none => absurd none silent)
          (fun _ => ⟨_, _, joins, fun _ _ => rfl, fun joined => ?_⟩) ?_ nofun rfl⟩
        · rw [answered] at joined
          cases joined
        · rw [Encoder.answers, answered]
          rfl
      | ok =>
        have film := film_run
          { world with
            files := listed
            calls := world.calls ++ [⟨joining context, listed⟩] }
          timeline.clips (Option.some (soundPath context)) (files.output fun _ => answered)
        rw [render_joined silent files answered, film]
        refine ⟨_, List.append_assoc _ _ _, follows_of_answers [.ok ()] _
          (fun none => absurd none silent) (fun _ => ⟨_, _, joins, fun error failed => ?_,
            fun _ => ⟨_, rfl, showing_shows context spec timeline.clips _ _ ready⟩⟩) ?_
          (List.forall_mem_singleton.mpr rfl) rfl⟩
        · rw [answered] at failed
          cases failed
        · rw [List.singleton_append, Encoder.answers, answered]
          rfl

/-- A machine on which the encoder makes what it is told to make as long as it is not told to join
anything. -/
def voiceless : Surroundings :=
  { Action.offline with
    encoder := ⟨fun _ => .ok 4, fun _ call =>
      if call.invocation.args.contains "concat" then .error (.encoding 1 "no sound") else .ok ()⟩ }

/-- A run that has gathered nothing yet. -/
def deskContext : Context := .start Pipeline.desk "11111111-2222-4333-8444-555555555555"

theorem succeeds_of_isOk {work : Files.Work Unit} {tree : Files.Tree}
    (fine : (work tree).1.isOk = true) : work tree = (.ok (), (work tree).2) := by
  rcases ran : work tree with ⟨fault | ⟨⟩, after⟩
  · rw [ran] at fine
    cases fine
  · rfl

def sunSpec : SequenceSpec := Pipeline.showSpec "sun.png" "sun.mp3"

/-- An image whose sound cannot be joined, and a sequence without images. -/
theorem assemble_follows_voiceless :
    (∀ timeline, Timeline.build binary64 voiceless.encoder.audioDuration deskContext Scope.root
        { sunSpec with images := [] } = .ok timeline → timeline.clips = []) ∧
      (∃ error, assemble voiceless deskContext Scope.root { sunSpec with images := [] } {} =
        (.error (.sequence .successively error), {})) ∧
      ∃ timeline made listed ready, Timeline.build binary64 voiceless.encoder.audioDuration
          deskContext Scope.root sunSpec = .ok timeline ∧ timeline.clips ≠ [] ∧
        FilesSucceed voiceless deskContext sunSpec timeline.audios {} made listed ready ∧
        ∃ calls, (assemble voiceless deskContext Scope.root sunSpec {}).2.calls = calls ∧
          Follows voiceless.encoder .successively timeline [] calls "out/news.mp4"
            (assemble voiceless deskContext Scope.root sunSpec {}).1 := by
  have nothing (timeline : Timeline Float) (built : Timeline.build binary64
      voiceless.encoder.audioDuration deskContext Scope.root { sunSpec with images := [] } =
        .ok timeline) : timeline.clips = [] := by
    cases built
    rfl
  let made := (Files.Work.makeDirectories (tempDirectory deskContext) {}).2
  let listed := (Files.Work.write (listPath deskContext) (Encoder.concatList ["sun.mp3"]) made).2
  have built : Timeline.build binary64 voiceless.encoder.audioDuration deskContext Scope.root
      sunSpec = .ok ⟨[⟨"sun.png", 4⟩], ["sun.mp3"]⟩ := rfl
  have files : FilesSucceed voiceless deskContext sunSpec ["sun.mp3"] {} made listed
      (Files.Work.makeDirectories
        (Files.parent (videoPath voiceless deskContext sunSpec)) listed).2 :=
    { directory := succeeds_of_isOk (by decide +kernel)
      silent := nofun
      list := fun _ => succeeds_of_isOk (by decide +kernel)
      output := fun _ => succeeds_of_isOk (by decide +kernel) }
  have path : videoPath voiceless deskContext sunSpec = "out/news.mp4" := by decide +kernel
  obtain ⟨calls, grown, follows⟩ := (assemble_follows voiceless deskContext Scope.root sunSpec
    {}).2 _ _ _ _ built (List.cons_ne_nil _ _) files
  rw [path] at follows
  exact ⟨nothing, (assemble_follows voiceless deskContext Scope.root { sunSpec with images := [] }
    {}).1 nothing, _, _, _, _, built, List.cons_ne_nil _ _, files, calls, grown, follows⟩

end Media

end Newsreel
