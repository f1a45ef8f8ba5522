import Mathlib.Data.List.Dedup
import Newsreel.Fetch.Request
import Newsreel.Proofs.Context.Proper
import Newsreel.Proofs.Context.ReadWrite

/-!
The parameters of a request.

Parameters made of arrays are written blindly: every text is followed by its delimiter, and the last
delimiter is taken off the end again. That takes off no more than it should, since whatever the texts
are, the whole ends with the delimiter of the last item. Such a parameter takes the place of all
earlier ones of its name, so in the end each name is there once.
-/

namespace Newsreel

namespace Text

theorem before?_append (front ending : List Char) :
    before? ending (front ++ ending) = some front := by
  rw [before?, List.reverse_append, after?_eq_some_iff.mpr rfl, Option.map_some, List.reverse_reverse]

end Text

namespace ParamsArray

/-! ## Texts joined -/

/-- Texts, each with its delimiter behind it but the last. -/
def weave : List (String × String) → String
  | [] => ""
  | [(text, _)] => text
  | (text, delimiter) :: pieces => text ++ delimiter ++ weave pieces

/-- The delimiter of the last text, if there is a text. -/
def lastDelimiter (pieces : List (String × String)) : String :=
  (pieces.getLast?.map (·.2)).getD ""

/-- Texts, each with its delimiter behind it. -/
def strung (pieces : List (String × String)) : String :=
  String.join (pieces.map fun (text, delimiter) => text ++ delimiter)

theorem strung_cons (piece : String × String) (pieces : List (String × String)) :
    strung (piece :: pieces) = piece.1 ++ piece.2 ++ strung pieces :=
  String.join_cons

theorem weave_append_lastDelimiter (pieces : List (String × String)) :
    weave pieces ++ lastDelimiter pieces = strung pieces := by
  induction pieces with
  | nil => rfl
  | cons piece pieces ih =>
    obtain ⟨text, delimiter⟩ := piece
    cases pieces with
    | nil => simp [weave, lastDelimiter, strung]
    | cons next rest =>
      change text ++ delimiter ++ weave (next :: rest) ++ lastDelimiter (next :: rest) = _
      rw [String.append_assoc, ih]
      exact (strung_cons (text, delimiter) (next :: rest)).symm

/-- Taking off the ending leaves what stands in front of it, whatever that ends with. -/
theorem dropLast_append (text delimiter : String) : dropLast delimiter (text ++ delimiter) = text := by
  rw [dropLast, String.toList_append, Text.before?_append]
  exact String.ofList_toList

theorem dropLast_strung (pieces : List (String × String)) :
    dropLast (lastDelimiter pieces) (strung pieces) = weave pieces := by
  rw [← weave_append_lastDelimiter, dropLast_append]

variable {array : ParamsArray} {context : Context} {apiKeyName : Option String} {scope : Scope}

/-- The text and the delimiter that a parameter has for an item. -/
structure Piece (array : ParamsArray) (context : Context) (apiKeyName : Option String)
    (iteration : Iteration) (piece : String × String) : Prop where
  text : context.formatString apiKeyName iteration.scope array.pattern = .ok piece.1
  delimiter : context.formatString apiKeyName iteration.scope array.delimiter = .ok piece.2

theorem pieces_ok_iff {iterations : List Iteration} {pieces : List (String × String)} :
    array.pieces context apiKeyName iterations = .ok pieces ↔
      List.Forall₂ (array.Piece context apiKeyName) iterations pieces := by
  induction iterations generalizing pieces with
  | nil => simp [ParamsArray.pieces, eq_comm]
  | cons iteration rest ih =>
    rw [ParamsArray.pieces, Outcome.bind_ok_iff]
    constructor
    · rintro ⟨text, filled, made⟩
      obtain ⟨delimiter, between, made⟩ := Outcome.bind_ok_iff.mp made
      obtain ⟨later, others, made⟩ := Outcome.bind_ok_iff.mp made
      cases made
      exact .cons ⟨filled, between⟩ (ih.mp others)
    · rintro (_ | ⟨⟨filled, between⟩, others⟩)
      refine ⟨_, filled, Outcome.bind_ok_iff.mpr ⟨_, between, ?_⟩⟩
      exact Outcome.bind_ok_iff.mpr ⟨_, ih.mpr others, rfl⟩

/-- A parameter has a value exactly where its array is found and both texts can be filled in for each
of its items. The value is all texts in order with the delimiter of each item behind its text, and
only the last delimiter is missing, even if it is empty or the last text ends with it. Without items
it is empty. -/
theorem join_weaves_pieces {joined : String} :
    array.join context apiKeyName scope = .ok joined ↔
      ∃ iterations pieces,
        context.iterations array.array "params_array" scope = .ok iterations ∧
        List.Forall₂ (array.Piece context apiKeyName) iterations pieces ∧
        joined = weave pieces ∧ joined ++ lastDelimiter pieces = strung pieces := by
  simp only [join, Outcome.bind_ok_iff, pieces_ok_iff]
  constructor
  · rintro ⟨iterations, begun, pieces, filled, made⟩
    obtain rfl : dropLast (lastDelimiter pieces) (strung pieces) = joined := Except.ok.inj made
    rw [dropLast_strung]
    exact ⟨iterations, pieces, begun, filled, rfl, weave_append_lastDelimiter pieces⟩
  · rintro ⟨iterations, pieces, begun, filled, rfl, -⟩
    exact ⟨iterations, begun, pieces, filled, congrArg Except.ok (dropLast_strung pieces)⟩

example : weave [("sun,", ","), ("", ""), ("rain", ";")] = "sun,,rain" := by decide

/-! ## Names once each -/

/-- The parameters whose names are not among the given ones. -/
def others (names : List String) (params : List (String × String)) : List (String × String) :=
  params.filter fun param => param.1 ∉ names

theorem others_filter (name : String) (names : List String) (params : List (String × String)) :
    others names (params.filter fun param => param.1 ≠ name) = others (name :: names) params := by
  rw [others, others, List.filter_filter]
  congr 1
  funext param
  simp [Bool.and_comm]

theorem map_fst_others (names : List String) (params : List (String × String)) :
    (others names params).map (·.1) = (params.map (·.1)).filter (· ∉ names) := by
  rw [others, List.filter_map]
  rfl

theorem others_append (names : List String) (front back : List (String × String)) :
    others names (front ++ back) = others names front ++ others names back := List.filter_append ..

/-- The names of the parameters that are made of arrays. -/
def keys (arrays : List ParamsArray) : List String := arrays.map (·.key)

@[simp] theorem keys_cons (first : ParamsArray) (arrays : List ParamsArray) :
    keys (first :: arrays) = first.key :: keys arrays := rfl

/-- One parameter after the other takes the place of all that have its name. In the end there is what
no array is for, and behind it the last parameter of each name, in the order of the last ones. -/
theorem extend_ok {arrays : List ParamsArray} {params result : List (String × String)}
    (success : extend context apiKeyName scope params arrays = .ok result) :
    ∃ own, result = others (keys arrays) params ++ own ∧ own.map (·.1) = (keys arrays).dedup ∧
      ∀ front array back, arrays = front ++ array :: back → array.key ∉ keys back →
        ∃ joined, array.join context apiKeyName scope = .ok joined ∧ (array.key, joined) ∈ own := by
  induction arrays generalizing params with
  | nil =>
    cases success
    refine ⟨[], by simp [others, keys], rfl, ?_⟩
    rintro (_ | _) array back impossible <;> cases impossible
  | cons first arrays ih =>
    obtain ⟨joined, made, success⟩ := Outcome.bind_ok_iff.mp success
    obtain ⟨own, result, names, values⟩ := ih success
    rw [others_append, others_filter] at result
    by_cases again : first.key ∈ keys arrays
    -- A later array is for the same name, and takes the place of this one too.
    · have gone : others (keys arrays) [(first.key, joined)] = [] := by simp [others, again]
      refine ⟨own, ?_, ?_, ?_⟩
      · rw [result, gone, List.append_nil]
        rfl
      · rw [names, keys_cons, List.dedup_cons_of_mem again]
      · rintro (_ | ⟨other, front⟩) array back parts last
        · cases parts
          exact absurd again last
        · exact values front array back (List.cons.inj parts).2 last
    · have stays : others (keys arrays) [(first.key, joined)] = [(first.key, joined)] := by
        simp [others, again]
      refine ⟨(first.key, joined) :: own, ?_, ?_, ?_⟩
      · rw [result, stays, List.append_assoc]
        rfl
      · rw [List.map_cons, names, keys_cons, List.dedup_cons_of_notMem again]
      · rintro (_ | ⟨other, front⟩) array back parts last
        · cases parts
          exact ⟨joined, made, List.mem_cons_self⟩
        · obtain ⟨text, filled, listed⟩ := values front array back (List.cons.inj parts).2 last
          exact ⟨text, filled, List.mem_cons_of_mem _ listed⟩

end ParamsArray

namespace RequestSpec

variable {context : Context} {apiKeyName : Option String} {scope : Scope} {spec : RequestSpec}

/-- The fields of the mapping that the parameters of a request stand for. Without a mapping there are
none. -/
inductive ParamFields (spec : RequestSpec) (context : Context) (apiKeyName : Option String)
    (scope : Scope) : Fields → Prop where
  | absent (none : spec.params = none) : ParamFields spec context apiKeyName scope []
  | null {template : Value} (given : spec.params = some template)
      (filled : context.deepFormat apiKeyName scope template = .ok .null) :
      ParamFields spec context apiKeyName scope []
  | mapping {template : Value} {fields : Fields} (given : spec.params = some template)
      (filled : context.deepFormat apiKeyName scope template = .ok (.object fields)) :
      ParamFields spec context apiKeyName scope fields

theorem formatPairs_ok {pairs : List (String × String)}
    (success : formatPairs context apiKeyName scope "params" spec.params = .ok pairs) :
    ∃ fields, spec.ParamFields context apiKeyName scope fields ∧
      pairs = fields.map fun field => (field.1, field.2.text) := by
  cases given : spec.params with
  | none =>
    rw [given] at success
    cases success
    exact ⟨[], .absent given, rfl⟩
  | some template =>
    rw [given] at success
    obtain ⟨value, filled, success⟩ := Outcome.bind_ok_iff.mp success
    cases value with
    | null =>
      cases success
      exact ⟨[], .null given filled, rfl⟩
    | object fields =>
      cases success
      exact ⟨fields, .mapping given filled, rfl⟩
    | _ => cases success

theorem ParamFields.nodup (proper : context.Proper) (bound : scope.Proper)
    (written : ∀ template, spec.params = some template → template.Proper) {fields : Fields}
    (stands : spec.ParamFields context apiKeyName scope fields) : (Fields.names fields).Nodup := by
  cases stands with
  | absent | null => exact List.nodup_nil
  | mapping given filled =>
    have whole := proper.deepFormat bound (written _ given) filled
    exact (Value.proper_object_iff.mp whole).1

/-- Each parameter of a request has a name of its own. A name that arrays are given for has the text
of the last one of them; every other field of the mapping keeps its value, written as a text. The
fields that are kept come first, in their order, and behind them what is made of arrays, in the order
of the last ones. -/
theorem build_params {request : Request} (proper : context.Proper) (bound : scope.Proper)
    (written : ∀ template, spec.params = some template → template.Proper)
    (success : spec.build context apiKeyName scope = .ok request) :
    (request.params.map (·.1)).Nodup ∧
      ∃ fields, spec.ParamFields context apiKeyName scope fields ∧
        request.params.map (·.1) =
          (Fields.names fields).filter (· ∉ ParamsArray.keys spec.paramsArray) ++
            (ParamsArray.keys spec.paramsArray).dedup ∧
        (∀ field ∈ fields, field.1 ∉ ParamsArray.keys spec.paramsArray →
          (field.1, field.2.text) ∈ request.params) ∧
        ∀ front array back, spec.paramsArray = front ++ array :: back →
          array.key ∉ ParamsArray.keys back →
          ∃ joined, array.join context apiKeyName scope = .ok joined ∧
            (array.key, joined) ∈ request.params := by
  obtain ⟨method, -, success⟩ := Outcome.bind_ok_iff.mp success
  obtain ⟨headers, -, success⟩ := Outcome.bind_ok_iff.mp success
  obtain ⟨body, -, success⟩ := Outcome.bind_ok_iff.mp success
  obtain ⟨url, -, success⟩ := Outcome.bind_ok_iff.mp success
  obtain ⟨given, filled, success⟩ := Outcome.bind_ok_iff.mp success
  obtain ⟨params, extended, success⟩ := Outcome.bind_ok_iff.mp success
  obtain ⟨format, -, success⟩ := Outcome.bind_ok_iff.mp success
  cases success
  obtain ⟨fields, stands, rfl⟩ := formatPairs_ok filled
  obtain ⟨own, rfl, names, values⟩ := ParamsArray.extend_ok extended
  have order : (ParamsArray.others (ParamsArray.keys spec.paramsArray)
      (fields.map fun field => (field.1, field.2.text)) ++ own).map (·.1) =
      (Fields.names fields).filter (· ∉ ParamsArray.keys spec.paramsArray) ++
        (ParamsArray.keys spec.paramsArray).dedup := by
    rw [List.map_append, ParamsArray.map_fst_others, names, List.map_map]
    rfl
  refine ⟨?_, fields, stands, order, fun field listed kept => ?_, ?_⟩
  · rw [order, List.nodup_append]
    refine ⟨(stands.nodup proper bound written).filter _, List.nodup_dedup _, ?_⟩
    rintro name kept other own rfl
    simp only [List.mem_filter, decide_eq_true_eq] at kept
    exact kept.2 (List.mem_dedup.mp own)
  · refine List.mem_append_left _ (List.mem_filter.mpr ⟨List.mem_map_of_mem listed, ?_⟩)
    simpa using kept
  · intro front array back parts last
    obtain ⟨joined, made, listed⟩ := values front array back parts last
    exact ⟨joined, made, List.mem_append_right _ listed⟩

/-- A request with a parameter that is given three times. -/
def sky : RequestSpec where
  urlPattern := "http://mock.test/sky"
  method := .string "get"
  headers := none
  body := none
  bodyType := .string "json"
  bodyEncoding := none
  params := some (.object [("day", .string "all"), ("lang", .string "de")])
  paramsArray := [⟨"day", .string "days", "{_loop.text}", ","⟩,
    ⟨"wind", .array [.string "north"], "{_loop}", ";"⟩, ⟨"day", .string "days", "{_idx}", ";"⟩]
  responseFormat := .string "json"
  includeHeaders := false

theorem build_params_sky :
    Context.forecast.Proper ∧ Scope.root.Proper ∧
      ∃ request, sky.build Context.forecast none Scope.root = .ok request ∧
        request.params = [("lang", "de"), ("wind", "north"), ("day", "0;1")] ∧
        (request.params.map (·.1)).Nodup := by
  have proper := Context.proper_forecast
  have written : ∀ template, sky.params = some template → template.Proper := by
    rintro template ⟨⟩
    simp
  have params : (sky.build Context.forecast none Scope.root).toOption.map (·.params) =
      some [("lang", "de"), ("wind", "north"), ("day", "0;1")] := by decide +kernel
  cases success : sky.build Context.forecast none Scope.root with
  | error error =>
    rw [success] at params
    cases params
  | ok request =>
    rw [success] at params
    obtain ⟨distinct, -⟩ := build_params proper Scope.proper_root written success
    exact ⟨proper, Scope.proper_root, request, rfl, Option.some.inj params, distinct⟩

end RequestSpec

end Newsreel
