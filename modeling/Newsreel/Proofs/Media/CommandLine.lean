import Newsreel.Proofs.Media.Crossfade
import Newsreel.Proofs.Run.Outputs

/-!
The command line of a video, read as the encoder reads it.

Arguments come in groups: a switch alone, or an option and its value. The last argument is the file
that is written. Options before an input are for that input, those behind the last input are for the
output. Read so, the arguments for some clips name the images in order, each with its own length,
and then the sound; the graph and the sound track are taken from just these places.
-/

namespace Newsreel

/-! Groups of arguments. -/

/-- A switch, or an option with its value. -/
inductive Argument where
  | switch (name : String)
  | option (name value : String)
  deriving DecidableEq, Repr

namespace Argument

/-- The options that have no value. -/
def isSwitch (name : String) : Bool := name == "-y"

/-- Options have a value and switches have none. -/
def isSound : Argument → Bool
  | .switch name => isSwitch name
  | .option name _ => !isSwitch name

/-- An argument that is for no file but for the whole command line. -/
def isGeneral : Argument → Bool
  | .switch _ => true
  | .option name _ => name == "-loglevel"

/-- The value of an option of the given name. -/
def value? (name : String) : Argument → Option String
  | .switch _ => none
  | .option other value => if other = name then some value else none

/-- The argument as it is written. -/
def texts : Argument → List String
  | .switch name => [name]
  | .option name value => [name, value]

end Argument

/-- The groups of arguments, and the last argument, which stands alone. -/
def readGroups : List String → Option (List Argument × String)
  | [] => none
  | [output] => some ([], output)
  | name :: value :: rest =>
    if Argument.isSwitch name then
      (readGroups (value :: rest)).map fun read => (.switch name :: read.1, read.2)
    else (readGroups rest).map fun read => (.option name value :: read.1, read.2)

theorem readGroups_texts {groups : List Argument} (sound : ∀ group ∈ groups, group.isSound = true)
    (output : String) :
    readGroups (groups.flatMap Argument.texts ++ [output]) = some (groups, output) := by
  induction groups with
  | nil => rfl
  | cons group rest ih =>
    have here := sound group List.mem_cons_self
    have behind := ih fun other member => sound other (List.mem_cons_of_mem _ member)
    cases group with
    | switch name =>
      obtain ⟨value, more, next⟩ := List.exists_cons_of_ne_nil
        (List.append_ne_nil_of_right_ne_nil (rest.flatMap Argument.texts)
          (List.cons_ne_nil output []))
      have alone : Argument.isSwitch name = true := here
      rw [next] at behind
      rw [List.flatMap_cons, List.append_assoc, next, Argument.texts, List.singleton_append,
        readGroups, if_pos alone, behind]
      rfl
    | option name value =>
      have valued : Argument.isSwitch name = false := by simpa [Argument.isSound] using here
      rw [List.flatMap_cons, List.append_assoc, Argument.texts, List.cons_append,
        List.singleton_append, readGroups, valued, if_neg Bool.false_ne_true, behind]
      rfl

/-! Files and their options. -/

/-- A file with the options that stand before it. -/
structure GivenFile where
  options : List Argument
  path : String
  deriving DecidableEq, Repr

/-- The file as it is given as an input. -/
def GivenFile.arguments (file : GivenFile) : List Argument :=
  file.options ++ [.option "-i" file.path]

/-- The inputs, and the options behind the last of them. The options under way are held. -/
def takeInputs (held : List Argument) : List Argument → List GivenFile × List Argument
  | [] => ([], held)
  | argument :: rest => match argument.value? "-i" with
    | some path => (⟨held, path⟩ :: (takeInputs [] rest).1, (takeInputs [] rest).2)
    | none => takeInputs (held ++ [argument]) rest

theorem takeInputs_options {options : List Argument}
    (free : ∀ argument ∈ options, argument.value? "-i" = none) (held rest : List Argument) :
    takeInputs held (options ++ rest) = takeInputs (held ++ options) rest := by
  induction options generalizing held with
  | nil => rw [List.nil_append, List.append_nil]
  | cons argument options ih =>
    rw [List.cons_append, takeInputs, free argument List.mem_cons_self]
    refine (ih (fun other member => free other (List.mem_cons_of_mem _ member)) _).trans ?_
    rw [List.append_assoc, List.singleton_append]

theorem takeInputs_files {files : List GivenFile}
    (free : ∀ file ∈ files, ∀ argument ∈ file.options, argument.value? "-i" = none)
    {options : List Argument} (plain : ∀ argument ∈ options, argument.value? "-i" = none) :
    takeInputs [] (files.flatMap GivenFile.arguments ++ options) = (files, options) := by
  induction files with
  | nil =>
    have behind := takeInputs_options plain [] []
    rw [List.append_nil] at behind
    exact behind
  | cons file files ih =>
    have later := ih fun other member => free other (List.mem_cons_of_mem _ member)
    have first := takeInputs_options (free file List.mem_cons_self) []
      (.option "-i" file.path :: (files.flatMap GivenFile.arguments ++ options))
    rw [List.flatMap_cons, GivenFile.arguments, List.append_assoc, List.append_assoc]
    refine first.trans ?_
    have input : Argument.value? "-i" (.option "-i" file.path) = some file.path := rfl
    rw [takeInputs, input, later]
    rfl

/-- A command line that has been read. -/
structure CommandLine where
  general : List Argument
  /-- The files that are read, by their places. -/
  inputs : List GivenFile
  /-- The options for the output. -/
  options : List Argument
  output : String
  deriving DecidableEq, Repr

namespace CommandLine

/-- The command line that some arguments make. -/
def read (arguments : List String) : Option CommandLine :=
  (readGroups arguments).map fun groups =>
    let files := takeInputs [] (groups.1.filter fun group => !group.isGeneral)
    { general := groups.1.filter Argument.isGeneral
      inputs := files.1
      options := files.2
      output := groups.2 }

/-- The values that an option has for the output. -/
def values (line : CommandLine) (name : String) : List String :=
  line.options.filterMap (Argument.value? name)

/-- Arguments that are for one file each. -/
def IsFiled (argument : Argument) : Prop :=
  argument.isSound = true ∧ argument.isGeneral = false ∧ argument.value? "-i" = none

theorem read_texts (general : List Argument) {options : List Argument} {inputs : List GivenFile}
    (whole : ∀ argument ∈ general, argument.isSound = true ∧ argument.isGeneral = true)
    (before : ∀ file ∈ inputs, ∀ argument ∈ file.options, IsFiled argument)
    (behind : ∀ argument ∈ options, IsFiled argument) (output : String) :
    read ((general ++ (inputs.flatMap GivenFile.arguments ++ options)).flatMap Argument.texts ++
      [output]) = some ⟨general, inputs, options, output⟩ := by
  have filed : ∀ argument ∈ inputs.flatMap GivenFile.arguments ++ options,
      argument.isSound = true ∧ argument.isGeneral = false := by
    intro argument member
    rcases List.mem_append.mp member with input | option
    · obtain ⟨file, inside, here⟩ := List.mem_flatMap.mp input
      rcases List.mem_append.mp here with option | itself
      · exact ⟨(before file inside argument option).1, (before file inside argument option).2.1⟩
      · rw [List.mem_singleton.mp itself]
        exact ⟨rfl, rfl⟩
    · exact ⟨(behind argument option).1, (behind argument option).2.1⟩
  have sound : ∀ argument ∈ general ++ (inputs.flatMap GivenFile.arguments ++ options),
      argument.isSound = true := by
    intro argument member
    rcases List.mem_append.mp member with first | later
    · exact (whole argument first).1
    · exact (filed argument later).1
  have general_all : general.filter Argument.isGeneral = general :=
    List.filter_eq_self.mpr fun argument member => (whole argument member).2
  have general_none : general.filter (fun group => !group.isGeneral) = [] :=
    List.filter_eq_nil_iff.mpr fun argument member => by simp [(whole argument member).2]
  have filed_all : (inputs.flatMap GivenFile.arguments ++ options).filter
      (fun group => !group.isGeneral) = inputs.flatMap GivenFile.arguments ++ options :=
    List.filter_eq_self.mpr fun argument member => by simp [(filed argument member).2]
  have filed_none :
      (inputs.flatMap GivenFile.arguments ++ options).filter Argument.isGeneral = [] :=
    List.filter_eq_nil_iff.mpr fun argument member => by simp [(filed argument member).2]
  have files := takeInputs_files (fun file inside argument member =>
    (before file inside argument member).2.2) fun argument member => (behind argument member).2.2
  rw [read, readGroups_texts sound, Option.map_some]
  simp only [List.filter_append, general_all, general_none, filed_all, filed_none,
    List.nil_append, List.append_nil, files]

end CommandLine

/-! Streams that a graph takes from outside. -/

/-- The streams that the chains of a graph take and that none of them makes. -/
def openStreams (links : List WrittenChain) : List String :=
  (links.flatMap (·.inputs)).filter fun label => decide (label ∉ links.map (·.output))

/-- A graph for so many images takes just so many inputs, from the first one on. -/
theorem IsCrossfade.openStreams_perm {links : List WrittenChain} {images : Nat}
    {transition : String} {delay : Nat → String}
    (crossfade : IsCrossfade links images transition delay) :
    (openStreams links).Perm ((List.range images).map Text.natural) := by
  have distinct := crossfade.distinct
  rw [List.append_assoc, List.map_append] at distinct
  have apart := (List.nodup_append'.mp distinct).2.2
  have inputs : ((Stream.inputs images).map Stream.label).filter
      (fun label => decide (label ∉ links.map (·.output))) =
        (List.range images).map Text.natural := by
    rw [List.filter_eq_self.mpr, Stream.inputs, List.map_map, List.range_eq_range']
    · rfl
    · intro label member
      rw [decide_eq_true_eq, crossfade.made]
      exact apart member
  have between : ((Stream.between images).map Stream.label).filter
      (fun label => decide (label ∉ links.map (·.output))) = [] := by
    refine List.filter_eq_nil_iff.mpr fun label member => ?_
    rw [decide_eq_true_eq, crossfade.made, List.map_append]
    exact not_not_intro (List.mem_append_left _ member)
  refine (crossfade.taken.filter _).trans (List.Perm.of_eq ?_)
  rw [List.map_append, List.filter_append, inputs, between, List.append_nil]

namespace Encoder

variable {τ : Type}

/-! The command line of a video. -/

/-- An image, looped for some time. -/
def clipInput (durationText : τ → String) (clip : Clip τ) : GivenFile :=
  ⟨[.option "-loop" "1", .option "-t" (durationText clip.duration)], clip.image⟩

/-- Sound as it is. -/
def soundInput (path : String) : GivenFile := ⟨[], path⟩

/-- What is taken from the graph and from the sound, or the pixel format. -/
def pictureOptions (graph : Option String) (track : Option Nat) : List Argument :=
  match graph, track with
  | some graph, some track =>
    [.option "-filter_complex" graph, .option "-map" "[v]",
      .option "-map" (Text.natural track ++ ":a")]
  | some graph, none => [.option "-filter_complex" graph, .option "-map" "[v]"]
  | none, _ => [.option "-pix_fmt" "yuv420p"]

theorem texts_pictureOptions (graph : Option String) (track : Option Nat) :
    (pictureOptions graph track).flatMap Argument.texts = pictureArgs graph track := by
  cases graph <;> cases track <;> rfl

/-- The options for the output. -/
def videoOptions (graph : Option String) (audio : Option String) (track : Nat) (nvenc : Bool) :
    List Argument :=
  (audio.toList.map fun _ => .option "-c:a" "copy") ++
    pictureOptions graph (audio.map fun _ => track) ++
    (if nvenc then [.option "-c:v" "h264_nvenc"] else []) ++ [.option "-s" resolution]

theorem isFiled_videoOptions (graph audio : Option String) (track : Nat) (nvenc : Bool) :
    ∀ argument ∈ videoOptions graph audio track nvenc, CommandLine.IsFiled argument := by
  intro argument member
  have filed (name value : String) (known : name ∈ ["-c:a", "-filter_complex", "-map", "-pix_fmt",
      "-c:v", "-s"]) : CommandLine.IsFiled (.option name value) := by
    simp only [List.mem_cons, List.not_mem_nil, or_false] at known
    rcases known with rfl | rfl | rfl | rfl | rfl | rfl <;> exact ⟨rfl, rfl, rfl⟩
  cases graph <;> cases audio <;> cases nvenc <;>
    simp only [videoOptions, pictureOptions, Option.toList, Option.map, List.map, List.nil_append,
      List.cons_append, Bool.false_eq_true, if_false, if_true, List.mem_cons, List.not_mem_nil,
      or_false] at member <;>
    rcases member with rfl | rfl | rfl | rfl | rfl | rfl <;> exact filed _ _ (by decide)

/-- The command line for some clips and their graph. -/
def videoLine (durationText : τ → String) (graph : Option String) (clips : List (Clip τ))
    (audio : Option String) (nvenc : Bool) (output : String) : CommandLine where
  general := [.option "-loglevel" logLevel, .switch "-y"]
  inputs := clips.map (clipInput durationText) ++ audio.toList.map soundInput
  options := videoOptions graph audio clips.length nvenc
  output

theorem read_videoArgs (reckoning : Reckoning τ) (durationText : τ → String) (clips : List (Clip τ))
    (audio : Option String) (transition : String) (nvenc : Bool) (output : String) :
    CommandLine.read (videoArgs reckoning durationText clips audio transition nvenc output) =
      some (videoLine durationText
        (graph reckoning durationText transition (clips.map (·.duration))) clips audio nvenc
        output) := by
  have looped : ∀ file ∈ clips.map (clipInput durationText) ++ audio.toList.map soundInput,
      ∀ argument ∈ file.options, CommandLine.IsFiled argument := by
    intro file member argument option
    rcases List.mem_append.mp member with image | sound
    · obtain ⟨clip, -, rfl⟩ := List.mem_map.mp image
      simp only [clipInput, List.mem_cons, List.not_mem_nil, or_false] at option
      rcases option with rfl | rfl <;> exact ⟨rfl, rfl, rfl⟩
    · obtain ⟨path, -, rfl⟩ := List.mem_map.mp sound
      cases option
  have read := CommandLine.read_texts [.option "-loglevel" logLevel, .switch "-y"] (by decide)
    looped (isFiled_videoOptions (graph reckoning durationText transition (clips.map (·.duration)))
      audio clips.length nvenc) output
  refine Eq.trans (congrArg CommandLine.read ?_) read
  have images : ((clips.map (clipInput durationText)).flatMap GivenFile.arguments).flatMap
      Argument.texts = clips.flatMap (clipArgs durationText) := by
    rw [List.flatMap_map, List.flatMap_assoc]
    rfl
  have codec :
      (if nvenc then [Argument.option "-c:v" "h264_nvenc"] else []).flatMap Argument.texts =
        if nvenc then ["-c:v", "h264_nvenc"] else [] := by
    cases nvenc <;> rfl
  unfold videoArgs videoOptions
  simp only [List.flatMap_append, images, codec, texts_pictureOptions, List.append_assoc]
  cases audio <;> rfl

/-! The graph and what it takes. -/

theorem graph_of_few (reckoning : Reckoning τ) (text : τ → String) (transition : String)
    {durations : List τ} (few : durations.length ≤ 2) :
    graph reckoning text transition durations = none := by
  have short : (List.range' 0 (durations.length - 1)).length < 2 := by
    rw [List.length_range']
    omega
  rw [graph, starts_eq, FilterChain.crossfade, List.length_map, if_pos short]
  rfl

/-- The graph for more than two images takes each of them and nothing else. -/
theorem graph_of_many (reckoning : Reckoning τ) {text : τ → String} (plain : ∀ x, IsPlain (text x))
    (transition : τ) {durations : List τ} (many : 2 < durations.length) :
    ∃ written links, graph reckoning text (text transition) durations = some written ∧
      readGraph written = some links ∧
      (openStreams links).Perm ((List.range durations.length).map Text.natural) := by
  obtain ⟨count, images⟩ : ∃ count, durations.length = count + 2 := ⟨durations.length - 2, by omega⟩
  let delay (i : Nat) : String := text (reckoning.total (durations.take (i + 1)))
  have written : graph reckoning text (text transition) durations =
      some (graphText (FilterChain.chains (text transition) delay count)) := by
    rw [graph, starts_eq, images, Nat.add_sub_cancel_right (count + 1) 1,
      FilterChain.crossfade_eq _ _ (by omega)]
    rfl
  have nonempty : FilterChain.chains (text transition) delay count ≠ [] :=
    List.append_ne_nil_of_right_ne_nil _
      (List.append_ne_nil_of_right_ne_nil _ (List.cons_ne_nil _ _))
  have read := FilterChain.readGraph_graphText nonempty
    (FilterChain.plain_chains (plain transition) (fun _ => plain _) count)
  refine ⟨_, _, written, read, ?_⟩
  rw [images]
  exact (FilterChain.isCrossfade_chains (text transition) delay count).openStreams_perm

/-- Only the sound is mapped by the place of an input. -/
theorem mem_mapped_iff (audio : Option String) (track m : Nat) :
    Text.natural m ++ ":a" ∈ "[v]" :: audio.toList.map (fun _ => Text.natural track ++ ":a") ↔
      audio.isSome ∧ m = track := by
  have fromGraph : Text.natural m ++ ":a" ≠ "[v]" := by
    intro same
    have closing : ']' ∈ (Text.natural m ++ ":a").toList := by
      rw [same]
      decide
    rw [String.toList_append, List.mem_append] at closing
    rcases closing with digit | colon
    · exact absurd (Text.isDigit_of_mem_natural digit) (by decide)
    · exact absurd colon (by decide)
  have placed : Text.natural m ++ ":a" = Text.natural track ++ ":a" ↔ m = track :=
    ⟨fun same => Text.natural_injective ((String.append_left_inj ":a").mp same),
      fun same => by rw [same]⟩
  cases audio with
  | none => simp [fromGraph]
  | some path => simp [fromGraph, placed]

section Values

variable (durationText : τ → String) (clips : List (Clip τ)) (audio : Option String) (nvenc : Bool)
  (output : String)

/-- With a graph, its video is mapped and the sound track, if there is one. -/
theorem values_of_graph (written : String) :
    (videoLine durationText (some written) clips audio nvenc output).values "-filter_complex" =
        [written] ∧
      (videoLine durationText (some written) clips audio nvenc output).values "-map" =
        "[v]" :: audio.toList.map (fun _ => Text.natural clips.length ++ ":a") := by
  cases audio <;> cases nvenc <;> exact ⟨rfl, rfl⟩

theorem values_of_no_graph :
    (videoLine durationText none clips audio nvenc output).values "-filter_complex" = [] ∧
      (videoLine durationText none clips audio nvenc output).values "-map" = [] ∧
      (videoLine durationText none clips audio nvenc output).values "-pix_fmt" = ["yuv420p"] := by
  cases audio <;> cases nvenc <;> exact ⟨rfl, rfl, rfl⟩

end Values

/-- The images are the first inputs, each looped for its own length; the sound is the one behind
them and the last. More than two images go through the graph, which takes them all and no other
input, and the sound is mapped by its place; two images or fewer are written without a graph. The
last argument is the output. -/
theorem videoArgs_line_up (clips : List (Clip Float)) (audio : Option String) (transition : Float)
    (nvenc : Bool) (output : String) :
    ∃ line, CommandLine.read (videoArgs binary64 Media.secondsText clips audio
        (Media.secondsText transition) nvenc output) = some line ∧
      (∀ (k : Nat) (clip : Clip Float), clips[k]? = some clip → line.inputs[k]? = some
        ⟨[.option "-loop" "1", .option "-t" (Media.secondsText clip.duration)], clip.image⟩) ∧
      line.inputs[clips.length]? = audio.map (⟨[], ·⟩) ∧
      line.inputs.length = clips.length + audio.toList.length ∧
      (2 < clips.length → ∃ written links,
        graph binary64 Media.secondsText (Media.secondsText transition) (clips.map (·.duration)) =
            some written ∧
          line.values "-filter_complex" = [written] ∧
          line.values "-map" =
            "[v]" :: audio.toList.map (fun _ => Text.natural clips.length ++ ":a") ∧
          (∀ m, Text.natural m ++ ":a" ∈ line.values "-map" ↔
            ∃ path, audio = some path ∧ line.inputs[m]? = some ⟨[], path⟩) ∧
          readGraph written = some links ∧
          (openStreams links).Perm ((List.range clips.length).map Text.natural)) ∧
      (clips.length ≤ 2 → line.values "-filter_complex" = [] ∧ line.values "-map" = [] ∧
        line.values "-pix_fmt" = ["yuv420p"]) ∧
      line.output = output ∧
      (videoArgs binary64 Media.secondsText clips audio (Media.secondsText transition) nvenc
        output).getLast? = some output := by
  let inputs := clips.map (clipInput Media.secondsText) ++ audio.toList.map soundInput
  have image (k : Nat) (clip : Clip Float) (present : clips[k]? = some clip) :
      inputs[k]? = some (clipInput Media.secondsText clip) := by
    obtain ⟨inside, -⟩ := List.getElem?_eq_some_iff.mp present
    rw [List.getElem?_append_left (by simpa using inside), List.getElem?_map, present]
    rfl
  have sound : inputs[clips.length]? = audio.map soundInput := by
    rw [List.getElem?_append_right (by simp), List.length_map, Nat.sub_self]
    cases audio <;> rfl
  have placed (m : Nat) : (audio.isSome ∧ m = clips.length) ↔
      ∃ path, audio = some path ∧ inputs[m]? = some (soundInput path) := by
    constructor
    · rintro ⟨given, rfl⟩
      obtain ⟨path, rfl⟩ := Option.isSome_iff_exists.mp given
      exact ⟨path, rfl, sound⟩
    · rintro ⟨path, rfl, there⟩
      refine ⟨rfl, ?_⟩
      by_contra elsewhere
      rcases Nat.lt_or_gt_of_ne elsewhere with before | behind
      · have looped := image m clips[m] (List.getElem?_eq_getElem before)
        rw [there] at looped
        cases looped
      · have nothing : inputs[m]? = none := List.getElem?_eq_none (by simp [inputs]; omega)
        rw [there] at nothing
        cases nothing
  have lengths : (clips.map (·.duration)).length = clips.length := List.length_map _
  have count : inputs.length = clips.length + audio.toList.length := by simp [inputs]
  refine ⟨_, read_videoArgs .., image, sound, count, fun many => ?_, fun few => ?_, rfl,
    getLast?_videoArgs ..⟩
  · obtain ⟨written, links, made, read, taken⟩ := graph_of_many binary64 IsPlain.secondsText
      transition (lengths.symm ▸ many)
    rw [lengths] at taken
    obtain ⟨passed, mapped⟩ := values_of_graph Media.secondsText clips audio nvenc output written
    refine ⟨written, links, made, ?_, ?_, fun m => ?_, read, taken⟩
    · rw [made, passed]
    · rw [made, mapped]
    · rw [made, mapped, mem_mapped_iff, placed]
      rfl
  · rw [graph_of_few _ _ _ (lengths.symm ▸ few)]
    exact values_of_no_graph _ _ _ _ _

/-- Three images. -/
def threeClips : List (Clip Float) := [⟨"sun.png", 2⟩, ⟨"rain.png", 3⟩, ⟨"wind.png", 4.5⟩]

theorem videoArgs_line_up_three :
    2 < threeClips.length ∧ (threeClips.take 2).length ≤ 2 ∧
      (∃ line links, CommandLine.read (videoArgs binary64 Media.secondsText threeClips
          (some "news.mp3") (Media.secondsText 0.8) true "news.mp4") = some line ∧
        line.inputs[2]? = some ⟨[.option "-loop" "1", .option "-t" "4.5"], "wind.png"⟩ ∧
        line.inputs[3]? = some ⟨[], "news.mp3"⟩ ∧
        line.values "-map" = ["[v]", "3:a"] ∧
        (openStreams links).Perm ["0", "1", "2"]) ∧
      ∃ line, CommandLine.read (videoArgs binary64 Media.secondsText (threeClips.take 2) none
          (Media.secondsText 0.8) false "-y") = some line ∧
        line.values "-pix_fmt" = ["yuv420p"] ∧ line.output = "-y" := by
  have many : 2 < threeClips.length := by decide
  have few : (threeClips.take 2).length ≤ 2 := by decide
  have length : Media.secondsText 4.5 = "4.5" := by decide +kernel
  obtain ⟨line, read, image, sound, -, graph, -⟩ :=
    videoArgs_line_up threeClips (some "news.mp3") 0.8 true "news.mp4"
  obtain ⟨written, links, -, -, mapped, -, -, taken⟩ := graph many
  obtain ⟨short, readShort, -, -, -, -, noGraph, output, -⟩ :=
    videoArgs_line_up (threeClips.take 2) none 0.8 false "-y"
  have third := image 2 ⟨"wind.png", 4.5⟩ rfl
  rw [length] at third
  exact ⟨many, few, ⟨line, links, read, third, sound, mapped, taken⟩,
    short, readShort, (noGraph few).2.2, output⟩

end Encoder

end Newsreel
