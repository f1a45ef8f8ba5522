import Mathlib.Algebra.GroupWithZero.Nat
import Mathlib.Data.List.Nodup
import Mathlib.Data.List.Perm.Basic
import Mathlib.Data.List.Range
import Newsreel.Proofs.Media.GraphText
import Newsreel.Proofs.Media.Timeline

/-!
The graph that fades images over each other is a chain.

What the encoder reads in the graph is told apart from how the graph is made: every label is made
once and taken once, further on; and when the chains are applied one after the other to the inputs,
each image is laid over what the images before it show, faded in at the time at which it begins.
-/

namespace Newsreel

namespace FilterChain

/-- A layer laid over what is there. The last one makes the video. -/
def overlay (index : Nat) (isLast : Bool) : FilterChain where
  inputs := [ground index, .layer index]
  filters := if isLast then ["overlay", "format=yuv420p"] else ["overlay"]
  output := if isLast then .video else .background (index + 1)

theorem layersFrom_eq (transition : String) (delay : Nat → String) (index count : Nat) :
    layersFrom transition index ((List.range' index count).map delay) =
      (List.range' index count).map fun i => layer transition i (delay i) := by
  induction count generalizing index with
  | zero => rfl
  | succ count ih =>
    rw [List.range'_succ, List.map_cons, layersFrom, ih, List.map_cons]

theorem overlaysFrom_eq (index count : Nat) : overlaysFrom index (count + 1) =
    (List.range' index count).map (overlay · false) ++ [overlay (index + count) true] := by
  induction count generalizing index with
  | zero => rfl
  | succ count ih =>
    have first : overlaysFrom index (count + 2) =
        overlay index false :: overlaysFrom (index + 1) (count + 1) := rfl
    have last : index + 1 + count = index + (count + 1) := by omega
    rw [first, ih, List.range'_succ, List.map_cons, List.cons_append, last]

/-- The chains for one more than `count + 1` images. -/
def chains (transition : String) (delay : Nat → String) (count : Nat) : List FilterChain :=
  (List.range' 0 (count + 1)).map (fun i => layer transition i (delay i)) ++
    ((List.range' 0 count).map (overlay · false) ++ [overlay count true])

theorem crossfade_eq (transition : String) (delay : Nat → String) {count : Nat} (some : 0 < count) :
    crossfade transition ((List.range' 0 (count + 1)).map delay) =
      Option.some (chains transition delay count) := by
  have enough : ¬((List.range' 0 (count + 1)).map delay).length < 2 := by
    rw [List.length_map, List.length_range']
    omega
  rw [crossfade, if_neg enough, List.length_map, List.length_range', layersFrom_eq, overlaysFrom_eq,
    Nat.zero_add, chains]

variable {transition : String} {delay : Nat → String}

theorem plain_chains (plain : IsPlain transition) (delays : ∀ i, IsPlain (delay i)) (count : Nat) :
    ∀ chain ∈ chains transition delay count, chain.Plain := by
  intro chain member
  rcases List.mem_append.mp member with layers | overlays
  · obtain ⟨i, -, rfl⟩ := List.mem_map.mp layers
    refine ⟨fun filter inside => ?_, _, _, rfl, by decide⟩
    simp only [layer, List.mem_cons, List.not_mem_nil, or_false] at inside
    rcases inside with rfl | rfl | rfl
    · decide
    · exact ((IsPlain.append (by decide) plain).append (by decide))
    · exact ((IsPlain.append (by decide) (delays i)).append (by decide))
  · have laid (index : Nat) (isLast : Bool) : (overlay index isLast).Plain := by
      have plain : ∀ filter ∈ ["overlay", "format=yuv420p"], IsPlain filter := by decide
      cases isLast with
      | false => exact ⟨fun filter inside => plain filter (List.mem_cons.mpr (Or.inl
          (List.mem_singleton.mp inside))), "overlay", [], rfl, by decide⟩
      | true => exact ⟨plain, "overlay", ["format=yuv420p"], rfl, by decide⟩
    rcases List.mem_append.mp overlays with more | last
    · obtain ⟨i, -, rfl⟩ := List.mem_map.mp more
      exact laid i false
    · rw [List.mem_singleton.mp last]
      exact laid count true

end FilterChain

/-! What a graph shows. -/

/-- A picture: an input, or what filters make of pictures. -/
inductive Picture where
  | input (label : String)
  | filtered (filters : List String) (pictures : List Picture)

/-- The picture of a stream, and the streams without it. -/
def takeStream? (label : String) :
    List (String × Picture) → Option (Picture × List (String × Picture))
  | [] => none
  | (other, picture) :: rest =>
    if other = label then some (picture, rest)
    else (takeStream? label rest).map fun (found, left) => (found, (other, picture) :: left)

/-- The pictures of streams, each of which can be taken once. -/
def takeStreams? : List String → List (String × Picture) →
    Option (List Picture × List (String × Picture))
  | [], streams => some ([], streams)
  | label :: labels, streams => do
    let (picture, streams) ← takeStream? label streams
    let (pictures, streams) ← takeStreams? labels streams
    some (picture :: pictures, streams)

/-- A chain takes its inputs from the streams that are there and adds its output. -/
def WrittenChain.apply (chain : WrittenChain) (streams : List (String × Picture)) :
    Option (List (String × Picture)) := do
  let (pictures, left) ← takeStreams? chain.inputs streams
  some (left ++ [(chain.output, .filtered chain.filters pictures)])

/-- The streams that are left when all chains have been applied. -/
def applyGraph : List WrittenChain → List (String × Picture) → Option (List (String × Picture))
  | [], streams => some streams
  | chain :: chains, streams => do applyGraph chains (← chain.apply streams)

theorem applyGraph_append (front back : List WrittenChain) (streams : List (String × Picture)) :
    applyGraph (front ++ back) streams = (applyGraph front streams).bind (applyGraph back) := by
  induction front generalizing streams with
  | nil => rfl
  | cons chain front ih =>
    rw [List.cons_append, applyGraph, applyGraph]
    cases chain.apply streams with
    | none => rfl
    | some streams => exact ih streams

/-- A stream is found behind others. -/
theorem takeStream?_append (label : String) (front : List (String × Picture))
    (elsewhere : ∀ stream ∈ front, stream.1 ≠ label) (picture : Picture)
    (back : List (String × Picture)) :
    takeStream? label (front ++ (label, picture) :: back) = some (picture, front ++ back) := by
  induction front with
  | nil => rw [List.nil_append, takeStream?, if_pos rfl, List.nil_append]
  | cons stream front ih =>
    have apart := elsewhere stream List.mem_cons_self
    rw [List.cons_append, takeStream?, if_neg apart,
      ih fun other member => elsewhere other (List.mem_cons_of_mem _ member)]
    rfl

theorem apply_single {label output : String} {filters : List String} {picture : Picture}
    {streams left : List (String × Picture)}
    (taken : takeStream? label streams = some (picture, left)) :
    WrittenChain.apply ⟨[label], filters, output⟩ streams =
      some (left ++ [(output, .filtered filters [picture])]) := by
  simp [WrittenChain.apply, takeStreams?, taken]

theorem apply_pair {label second output : String} {filters : List String}
    {picture other : Picture} {streams between left : List (String × Picture)}
    (taken : takeStream? label streams = some (picture, between))
    (also : takeStream? second between = some (other, left)) :
    WrittenChain.apply ⟨[label, second], filters, output⟩ streams =
      some (left ++ [(output, .filtered filters [picture, other])]) := by
  simp [WrittenChain.apply, takeStreams?, taken, also]

namespace Picture

/-- An input, shown from some time on. -/
def faded (transition : String) (delay : Nat → String) (i : Nat) : Picture :=
  .filtered ["format=yuva444p", "fade=d=" ++ transition ++ ":t=in:alpha=1",
    "setpts=PTS-STARTPTS+" ++ delay i ++ "/TB"] [.input (Text.natural (i + 1))]

/-- What the inputs up to one of them show: each image over those before it. -/
def upTo (transition : String) (delay : Nat → String) : Nat → Picture
  | 0 => .input (Text.natural 0)
  | i + 1 => .filtered ["overlay"] [upTo transition delay i, faded transition delay i]

/-- What the inputs up to one of them show, as a video. -/
def video (transition : String) (delay : Nat → String) (i : Nat) : Picture :=
  .filtered ["overlay", "format=yuv420p"] [upTo transition delay i, faded transition delay i]

end Picture

open FilterChain

variable {transition : String} {delay : Nat → String}

/-- The inputs of a graph. -/
def inputStream (i : Nat) : String × Picture := (Text.natural i, .input (Text.natural i))

def layerStream (transition : String) (delay : Nat → String) (i : Nat) : String × Picture :=
  (Stream.label (.layer i), .faded transition delay i)

theorem applyGraph_layers (transition : String) (delay : Nat → String) (index count : Nat)
    (picture : Picture) (others : List (String × Picture)) :
    applyGraph (((List.range' index count).map fun i => layer transition i (delay i)).map written)
        ((Text.natural 0, picture) ::
          ((List.range' (index + 1) count).map inputStream ++ others)) =
      some ((Text.natural 0, picture) ::
        (others ++ (List.range' index count).map (layerStream transition delay))) := by
  induction count generalizing index others with
  | zero => simp [applyGraph]
  | succ count ih =>
    have apart : Text.natural 0 ≠ Text.natural (index + 1) := fun same =>
      absurd (Text.natural_injective same) (by omega)
    have taken := takeStream?_append (Text.natural (index + 1)) [(Text.natural 0, picture)]
      (by simpa using apart) (.input (Text.natural (index + 1)))
      ((List.range' (index + 1 + 1) count).map inputStream ++ others)
    have applied : (layer transition index (delay index)).written.apply
        ((Text.natural 0, picture) ::
          (inputStream (index + 1) :: (List.range' (index + 1 + 1) count).map inputStream ++ others)) =
        some ((Text.natural 0, picture) :: ((List.range' (index + 1 + 1) count).map inputStream ++
          (others ++ [layerStream transition delay index]))) := by
      refine (apply_single taken).trans ?_
      simp [layerStream, Picture.faded, layer]
    rw [List.range'_succ, List.map_cons, List.map_cons, applyGraph, List.range'_succ, List.map_cons,
      applied]
    refine (ih (index + 1) (others ++ [layerStream transition delay index])).trans ?_
    simp

/-- A layer is laid over what the inputs before it show; the result replaces both. -/
theorem apply_overlay (index : Nat) (isLast : Bool) {streams others : List (String × Picture)}
    (taken : takeStream? (ground index).label streams =
      some (.upTo transition delay index, layerStream transition delay index :: others)) :
    (overlay index isLast).written.apply streams =
      some (others ++ [((overlay index isLast).output.label,
        .filtered (overlay index isLast).filters
          [.upTo transition delay index, .faded transition delay index])]) :=
  apply_pair taken (takeStream?_append (Stream.label (.layer index)) [] nofun
    (.faded transition delay index) others)

theorem applyGraph_overlays (index count : Nat) (streams : List (String × Picture))
    (taken : takeStream? (ground index).label streams = some (.upTo transition delay index,
      (List.range' index (count + 1)).map (layerStream transition delay))) :
    applyGraph (((List.range' index count).map (overlay · false) ++
        [overlay (index + count) true]).map written) streams =
      some [("v", .video transition delay (index + count))] := by
  induction count generalizing index streams with
  | zero =>
    have applied := apply_overlay index true taken
    rw [Nat.add_zero, List.range'_zero, List.map_nil, List.nil_append, List.map_singleton, applyGraph,
      applied]
    rfl
  | succ count ih =>
    have applied := apply_overlay index false taken
    have layers : ∀ stream ∈
        (List.range' (index + 1) (count + 1)).map (layerStream transition delay),
        stream.1 ≠ (ground (index + 1)).label := by
      intro stream member same
      obtain ⟨i, -, rfl⟩ := List.mem_map.mp member
      have streams : Stream.layer i = .background (index + 1) := Stream.label_injective same
      cases streams
    have next := takeStream?_append _ _ layers (.upTo transition delay (index + 1)) []
    rw [List.append_nil] at next
    rw [List.range'_succ, List.map_cons, List.cons_append, List.map_cons, applyGraph, applied,
      show index + (count + 1) = index + 1 + count by omega]
    exact ih (index + 1) _ next

/-- Applied to the inputs, the chains leave one stream: the video, in which each image is laid over
those before it. -/
theorem applyGraph_chains (transition : String) (delay : Nat → String) (count : Nat) :
    applyGraph ((chains transition delay count).map written)
        ((List.range' 0 (count + 2)).map inputStream) =
      some [("v", .video transition delay count)] := by
  have inputs : (List.range' 0 (count + 2)).map inputStream =
      (Text.natural 0, .input (Text.natural 0)) ::
        (List.range' 1 (count + 1)).map inputStream := by
    rw [List.range'_succ, List.map_cons]
    rfl
  have layers := applyGraph_layers transition delay 0 (count + 1) (.input (Text.natural 0)) []
  have taken := takeStream?_append (ground 0).label [] nofun (.input (Text.natural 0))
    ((List.range' 0 (count + 1)).map (layerStream transition delay))
  have overlays := applyGraph_overlays 0 count _ taken
  rw [List.append_nil, List.nil_append] at layers
  rw [Nat.zero_add] at overlays
  rw [chains, List.map_append, applyGraph_append, inputs, layers]
  exact overlays

/-! Which streams there are. -/

/-- One chain makes the stream, one later chain takes it, and both only once. -/
structure PassedOn (links : List WrittenChain) (label : String) : Prop where
  made : (links.map (·.output)).count label = 1
  taken : (links.flatMap (·.inputs)).count label = 1
  later : ∃ (i j : Nat) (maker taker : WrittenChain), i < j ∧ links[i]? = some maker ∧
    maker.output = label ∧ links[j]? = some taker ∧ label ∈ taker.inputs

namespace Stream

/-- The streams that go into a graph for so many images. -/
def inputs (images : Nat) : List Stream := (List.range' 0 images).map .input

/-- The streams between the chains of a graph for so many images. -/
def between (images : Nat) : List Stream :=
  (List.range' 0 (images - 1)).map .layer ++ (List.range' 1 (images - 2)).map .background

theorem nodup_all (images : Nat) : (inputs images ++ between images ++ [video]).Nodup := by
  have each (make : Nat → Stream) (injective : Function.Injective make) (first count : Nat) :
      ((List.range' first count).map make).Nodup :=
    (List.nodup_range' 1).map injective
  refine List.nodup_append'.mpr ⟨List.nodup_append'.mpr ⟨each _ (fun _ _ => Stream.input.inj) _ _,
    List.nodup_append'.mpr ⟨each _ (fun _ _ => Stream.layer.inj) _ _,
      each _ (fun _ _ => Stream.background.inj) _ _, ?_⟩, ?_⟩, List.nodup_singleton _, ?_⟩
  all_goals
    intro stream here there
    simp only [inputs, between, List.mem_append, List.mem_map, List.mem_singleton] at here there
    grind

end Stream

/-- A graph in which each of so many images, one or more of them behind the first two, fades in over
those before it. -/
structure IsCrossfade (links : List WrittenChain) (images : Nat) (transition : String)
    (delay : Nat → String) : Prop where
  distinct : ((Stream.inputs images ++ Stream.between images ++ [Stream.video]).map Stream.label).Nodup
  made : links.map (·.output) = (Stream.between images ++ [Stream.video]).map Stream.label
  taken : (links.flatMap (·.inputs)).Perm
    ((Stream.inputs images ++ Stream.between images).map Stream.label)
  passedOn : ∀ stream ∈ Stream.between images, PassedOn links stream.label
  ending : ∃ last, links.getLast? = some last ∧ last.output = "v" ∧
    last.filters.getLast? = some "format=yuv420p"
  shows : applyGraph links ((List.range' 0 images).map inputStream) =
    some [("v", .video transition delay (images - 2))]

namespace FilterChain

theorem grounds (count : Nat) : (List.range' 0 (count + 1)).map ground =
    .input 0 :: (List.range' 1 count).map .background := by
  rw [List.range'_succ, List.map_cons]
  refine congrArg (ground 0 :: ·) (List.map_congr_left fun i inside => ?_)
  rw [List.mem_range'_1] at inside
  exact if_neg (by omega)

theorem map_succ_range' (make : Nat → Stream) (count : Nat) :
    (List.range' 0 count).map (fun i => make (i + 1)) = (List.range' 1 count).map make := by
  have shifted : List.range' 1 count = (List.range' 0 count).map (1 + ·) :=
    (List.map_add_range' 0 count 1).symm
  rw [shifted, List.map_map]
  exact List.map_congr_left fun i _ => congrArg make (Nat.add_comm i 1)

theorem outputs_chains (transition : String) (delay : Nat → String) (count : Nat) :
    (chains transition delay count).map (·.output) = Stream.between (count + 2) ++ [.video] := by
  simp [chains, Stream.between, layer, overlay, Function.comp_def, ← map_succ_range']

/-- Each layer is laid over one ground, and the first ground is an input. -/
theorem inputs_chains (transition : String) (delay : Nat → String) (count : Nat) :
    ((chains transition delay count).flatMap (·.inputs)).Perm
      (Stream.inputs (count + 2) ++ Stream.between (count + 2)) := by
  have layers : ((List.range' 0 (count + 1)).map fun i => layer transition i (delay i)).flatMap
      (·.inputs) = (List.range' 1 (count + 1)).map .input := by
    rw [List.flatMap_map, ← map_succ_range', List.map_eq_flatMap]
    rfl
  have overlays : ((List.range' 0 count).map (overlay · false) ++ [overlay count true]).flatMap
      (·.inputs) = (List.range' 0 (count + 1)).flatMap fun i => [ground i, Stream.layer i] := by
    rw [List.range'_1_concat, List.flatMap_append, List.flatMap_append, List.flatMap_map, Nat.zero_add]
    rfl
  have pairs := List.map_append_flatMap_perm (List.range' 0 (count + 1)) ground
    (fun i => [Stream.layer i])
  have inputs : Stream.inputs (count + 2) = .input 0 :: (List.range' 1 (count + 1)).map .input := by
    rw [Stream.inputs, List.range'_succ, List.map_cons]
  rw [grounds, ← List.map_eq_flatMap, List.cons_append] at pairs
  rw [chains, List.flatMap_append, layers, overlays, inputs, List.cons_append]
  calc (List.range' 1 (count + 1)).map Stream.input ++
        (List.range' 0 (count + 1)).flatMap (fun i => [ground i, Stream.layer i])
      |>.Perm ((List.range' 1 (count + 1)).map Stream.input ++ Stream.input 0 ::
        ((List.range' 1 count).map .background ++ (List.range' 0 (count + 1)).map .layer)) :=
        pairs.symm.append_left _
    _ |>.Perm (Stream.input 0 :: ((List.range' 1 (count + 1)).map Stream.input ++
        ((List.range' 1 count).map .background ++ (List.range' 0 (count + 1)).map .layer))) :=
        List.perm_middle
    _ |>.Perm (Stream.input 0 :: ((List.range' 1 (count + 1)).map Stream.input ++
        Stream.between (count + 2))) :=
        (List.perm_append_comm.append_left _).cons _

variable {count i : Nat}

theorem chains_layer (inside : i ≤ count) :
    (chains transition delay count)[i]? = some (layer transition i (delay i)) := by
  rw [chains, List.getElem?_append_left (by simpa [Nat.lt_succ_iff]), List.getElem?_map,
    List.getElem?_range' (Nat.lt_succ_of_le inside)]
  simp

theorem chains_overlay (inside : i ≤ count) :
    (chains transition delay count)[count + 1 + i]? = some (overlay i (i == count)) := by
  rw [chains, List.getElem?_append_right (by simp), List.length_map, List.length_range',
    Nat.add_sub_cancel_left]
  rcases Nat.lt_or_eq_of_le inside with before | rfl
  · have notLast : (i == count) = false := beq_false_of_ne (Nat.ne_of_lt before)
    rw [List.getElem?_append_left (by simpa), List.getElem?_map, List.getElem?_range' before, notLast]
    simp
  · rw [List.getElem?_append_right (by simp)]
    simp

/-- Each stream between the chains comes from a chain before the one that takes it. -/
theorem passed_later (transition : String) (delay : Nat → String) {stream : Stream}
    (member : stream ∈ Stream.between (count + 2)) :
    ∃ (i j : Nat) (maker taker : FilterChain), i < j ∧
      (chains transition delay count)[i]? = some maker ∧ maker.output = stream ∧
      (chains transition delay count)[j]? = some taker ∧ stream ∈ taker.inputs := by
  rcases List.mem_append.mp member with layers | backgrounds
  · obtain ⟨i, inside, rfl⟩ := List.mem_map.mp layers
    have bound : i ≤ count := by
      rw [List.mem_range'_1] at inside
      omega
    exact ⟨i, count + 1 + i, _, _, by omega, chains_layer bound, rfl, chains_overlay bound,
      List.mem_cons_of_mem _ List.mem_cons_self⟩
  · obtain ⟨i, inside, rfl⟩ := List.mem_map.mp backgrounds
    rw [List.mem_range'_1] at inside
    obtain ⟨before, rfl⟩ : ∃ before, i = before + 1 := ⟨i - 1, by omega⟩
    have made : (overlay before (before == count)).output = .background (before + 1) := by
      have notLast : (before == count) = false := beq_false_of_ne (by omega)
      rw [notLast]
      rfl
    exact ⟨count + 1 + before, count + 1 + (before + 1), _, _, by omega, chains_overlay (by omega),
      made, chains_overlay (by omega), List.mem_cons_self⟩

theorem isCrossfade_chains (transition : String) (delay : Nat → String) (count : Nat) :
    IsCrossfade ((chains transition delay count).map written) (count + 2) transition delay := by
  have distinct := (Stream.nodup_all (count + 2)).map Stream.label_injective
  have made : ((chains transition delay count).map written).map (·.output) =
      (Stream.between (count + 2) ++ [Stream.video]).map Stream.label := by
    rw [← outputs_chains transition delay, List.map_map, List.map_map]
    rfl
  have taken : (((chains transition delay count).map written).flatMap (·.inputs)).Perm
      ((Stream.inputs (count + 2) ++ Stream.between (count + 2)).map Stream.label) := by
    rw [List.flatMap_map]
    refine List.Perm.trans (List.Perm.of_eq ?_) ((inputs_chains transition delay count).map _)
    rw [List.map_flatMap]
    rfl
  refine ⟨distinct, made, taken, fun stream between => ⟨?_, ?_, ?_⟩, ?_, ?_⟩
  · rw [made]
    rw [List.append_assoc, List.map_append] at distinct
    exact List.count_eq_one_of_mem (List.nodup_append'.mp distinct).2.1
      (List.mem_map_of_mem (List.mem_append_left _ between))
  · rw [taken.count_eq]
    rw [List.map_append] at distinct
    exact List.count_eq_one_of_mem (List.nodup_append'.mp distinct).1
      (List.mem_map_of_mem (List.mem_append_right _ between))
  · obtain ⟨i, j, maker, taker, before, first, rfl, second, inside⟩ :=
      passed_later transition delay between
    exact ⟨i, j, maker.written, taker.written, before, by rw [List.getElem?_map, first]; rfl, rfl,
      by rw [List.getElem?_map, second]; rfl, List.mem_map_of_mem inside⟩
  · exact ⟨(overlay count true).written, by simp [chains], rfl, rfl⟩
  · exact applyGraph_chains transition delay count

end FilterChain

namespace Encoder

variable {τ : Type}

/-- Each image but the first begins when the images before it are over. -/
theorem starts_eq (reckoning : Reckoning τ) (text : τ → String) (durations : List τ) :
    (Timeline.offsets reckoning durations).tail.map text =
      (List.range' 0 (durations.length - 1)).map fun i =>
        text (reckoning.total (durations.take (i + 1))) := by
  refine List.ext_getElem? fun i => ?_
  rw [List.getElem?_map, List.getElem?_tail, Timeline.getElem?_offsets, List.getElem?_map]
  by_cases inside : i + 1 < durations.length
  · rw [List.getElem?_range' (by omega), List.getElem?_eq_getElem inside]
    simp
  · rw [List.getElem?_eq_none (Nat.not_lt.mp inside), List.getElem?_eq_none (by simp; omega)]
    rfl

/-- The graph for three images and more, as the encoder reads it, is a chain in which each image
fades in when the images before it are over; without rounding, that is after the sum of their
lengths. Fewer images have no graph. -/
theorem graph_isCrossfade (reckoning : Reckoning τ) {text : τ → String}
    (plain : ∀ x, IsPlain (text x)) (transition : τ) (durations : List τ) :
    (durations.length ≤ 2 → graph reckoning text (text transition) durations = none) ∧
      (3 ≤ durations.length → ∃ written links,
        graph reckoning text (text transition) durations = some written ∧
          readGraph written = some links ∧
          IsCrossfade links durations.length (text transition) fun i =>
            text (reckoning.total (durations.take (i + 1)))) ∧
      ∀ [AddMonoid τ] (ofNumber : Number → τ) (read? : String → Option τ),
        reckoning = .exact ofNumber read? →
          ∀ i, reckoning.total (durations.take (i + 1)) = (durations.take (i + 1)).sum := by
  refine ⟨fun few => ?_, fun enough => ?_, ?_⟩
  · have few : (List.range' 0 (durations.length - 1)).length < 2 := by
      rw [List.length_range']
      omega
    rw [graph, starts_eq, crossfade, List.length_map, if_pos few]
    rfl
  · obtain ⟨count, images⟩ : ∃ count, durations.length = count + 2 :=
      ⟨durations.length - 2, by omega⟩
    have some : 0 < count := by omega
    have chained : graph reckoning text (text transition) durations =
        Option.some (graphText (chains (text transition)
          (fun i => text (reckoning.total (durations.take (i + 1)))) count)) := by
      rw [graph, starts_eq, images, Nat.add_sub_cancel_right (count + 1) 1, crossfade_eq _ _ some]
      rfl
    refine ⟨_, _, chained, readGraph_graphText ?_ (plain_chains (plain _) (fun _ => plain _) count),
      images ▸ isCrossfade_chains _ _ count⟩
    exact List.append_ne_nil_of_right_ne_nil _ (List.append_ne_nil_of_right_ne_nil _ nofun)
  · rintro _ ofNumber read? rfl i
    exact Reckoning.total_exact ofNumber read? _

theorem graph_isCrossfade_three :
    (∀ x, IsPlain (Text.natural x)) ∧ (∀ x, IsPlain (Media.secondsText x)) ∧ 3 ≤ [2, 3, 4].length ∧
      graph (.exact (fun _ => 0) fun _ => none) Text.natural (Text.natural 1) [2, 3, 4] =
        some ("[1]format=yuva444p,fade=d=1:t=in:alpha=1,setpts=PTS-STARTPTS+2/TB[f0];"
          ++ "[2]format=yuva444p,fade=d=1:t=in:alpha=1,setpts=PTS-STARTPTS+5/TB[f1];"
          ++ "[0][f0]overlay[bg1];[bg1][f1]overlay,format=yuv420p[v]") ∧
      (∃ links, IsCrossfade links 3 "1" fun i => Text.natural ([2, 3, 4].take (i + 1)).sum) ∧
      ∃ written links,
        graph binary64 Media.secondsText (Media.secondsText 0.8) [2, 3, 4] = some written ∧
          readGraph written = some links ∧
          IsCrossfade links 3 (Media.secondsText 0.8) fun i =>
            Media.secondsText (binary64.total ([2, 3, 4].take (i + 1))) := by
  obtain ⟨-, enough, exact⟩ := graph_isCrossfade (.exact (fun _ => 0) fun _ => none)
    IsPlain.natural 1 [2, 3, 4]
  obtain ⟨written, links, made, read, isCrossfade⟩ := enough (by decide)
  simp only [exact _ _ rfl] at isCrossfade
  exact ⟨IsPlain.natural, IsPlain.secondsText, by decide, by decide +kernel, ⟨links, isCrossfade⟩,
    (graph_isCrossfade binary64 IsPlain.secondsText 0.8 [2, 3, 4]).2.1 (by decide)⟩

end Encoder

end Newsreel
