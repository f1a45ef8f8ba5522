import Mathlib.Data.List.Induction
import Newsreel.Value

/-!
Fields in their order.

Writing a field keeps the order of all others: a field that is already there keeps its place, and a
new one comes last.
-/

namespace Newsreel

namespace Fields

/-- The names of fields, in order. -/
def names (fields : Fields) : List String := fields.map (·.1)

@[simp] theorem names_nil : names [] = [] := rfl

@[simp] theorem names_cons (field : String × Value) (fields : Fields) :
    names (field :: fields) = field.1 :: names fields := rfl

@[simp] theorem names_append (front back : Fields) :
    names (front ++ back) = names front ++ names back := List.map_append

theorem mem_names {field : String × Value} {fields : Fields} (listed : field ∈ fields) :
    field.1 ∈ names fields := List.mem_map_of_mem listed

/-- One field has been written: in its old place, or last where its name is new. All other fields
stay as they are. -/
def Written (name : String) (value : Value) (before after : Fields) : Prop :=
  (∃ front old back, name ∉ names front ∧ before = front ++ (name, old) :: back ∧
    after = front ++ (name, value) :: back) ∨
  (name ∉ names before ∧ after = before ++ [(name, value)])

theorem insert_append_of_not_mem {name : String} {front : Fields} (first : name ∉ names front)
    (value : Value) (back : Fields) :
    insert name value (front ++ back) = front ++ insert name value back := by
  induction front with
  | nil => rfl
  | cons field front ih =>
    simp only [names_cons, List.mem_cons, not_or] at first
    rw [List.cons_append, insert, if_neg (Ne.symm first.1), ih first.2]
    rfl

theorem insert_of_not_mem {name : String} {fields : Fields} (new : name ∉ names fields)
    (value : Value) : insert name value fields = fields ++ [(name, value)] := by
  have written := insert_append_of_not_mem new value []
  rwa [List.append_nil] at written

theorem insert_append_of_mem {name : String} {front : Fields} (listed : name ∈ names front)
    (value : Value) (back : Fields) :
    insert name value (front ++ back) = insert name value front ++ back := by
  induction front with
  | nil => cases listed
  | cons field front ih =>
    obtain ⟨key, old⟩ := field
    by_cases same : key = name
    · simp only [List.cons_append, insert, if_pos same]
    · have later := (List.mem_cons.mp listed).resolve_left (Ne.symm same)
      simp only [List.cons_append, insert, if_neg same, ih later]

theorem exists_of_mem_names {name : String} {fields : Fields} (listed : name ∈ names fields) :
    ∃ front old back, name ∉ names front ∧ fields = front ++ (name, old) :: back := by
  induction fields with
  | nil => cases listed
  | cons field fields ih =>
    obtain ⟨key, old⟩ := field
    by_cases same : name = key
    · subst same
      exact ⟨[], old, fields, List.not_mem_nil, rfl⟩
    · obtain ⟨front, old, back, first, rfl⟩ := ih ((List.mem_cons.mp listed).resolve_left same)
      exact ⟨(key, _) :: front, old, back, List.not_mem_cons_of_ne_of_not_mem same first, rfl⟩

theorem written_insert (name : String) (value : Value) (fields : Fields) :
    Written name value fields (insert name value fields) := by
  by_cases listed : name ∈ names fields
  · obtain ⟨front, old, back, first, rfl⟩ := exists_of_mem_names listed
    refine Or.inl ⟨front, old, back, first, rfl, ?_⟩
    rw [insert_append_of_not_mem first, insert, if_pos rfl]
  · exact Or.inr ⟨listed, insert_of_not_mem listed value⟩

theorem names_insert_of_mem {name : String} {fields : Fields} (listed : name ∈ names fields)
    (value : Value) : names (insert name value fields) = names fields := by
  rcases written_insert name value fields with ⟨front, old, back, -, before, after⟩ | ⟨new, -⟩
  · rw [after, before]
    simp
  · exact absurd listed new

theorem Written.mem {name : String} {value : Value} {before after : Fields}
    (written : Written name value before after) {field : String × Value} (listed : field ∈ after) :
    field = (name, value) ∨ field ∈ before := by
  rcases written with ⟨front, old, back, -, rfl, rfl⟩ | ⟨-, rfl⟩
  · simp only [List.mem_append, List.mem_cons] at listed ⊢
    tauto
  · simp only [List.mem_append, List.mem_singleton] at listed
    exact listed.symm

theorem Written.nodup {name : String} {value : Value} {before after : Fields}
    (written : Written name value before after) (nodup : (names before).Nodup) :
    (names after).Nodup := by
  rcases written with ⟨front, old, back, -, rfl, rfl⟩ | ⟨new, rfl⟩
  · simpa using nodup
  · rw [names_append, List.nodup_append]
    refine ⟨nodup, by simp, fun first listed second added same => new ?_⟩
    rwa [same, List.mem_singleton.mp added] at listed

theorem ofList_concat (fields : List (String × Value)) (field : String × Value) :
    ofList (fields ++ [field]) = insert field.1 field.2 (ofList fields) :=
  List.foldl_append

/-- Fields with a name each are written as they are. -/
theorem ofList_of_nodup {fields : Fields} (nodup : (names fields).Nodup) :
    ofList fields = fields := by
  induction fields using List.reverseRecOn with
  | nil => rfl
  | append_singleton fields field ih =>
    obtain ⟨earlier, -, apart⟩ := List.nodup_append.mp (names_append .. ▸ nodup)
    have new : field.1 ∉ names fields := fun listed => apart _ listed _ List.mem_cons_self rfl
    rw [ofList_concat, ih earlier, insert_of_not_mem new]

theorem nodup_ofList (fields : List (String × Value)) : (names (ofList fields)).Nodup := by
  induction fields using List.reverseRecOn with
  | nil => exact List.nodup_nil
  | append_singleton fields field ih =>
    rw [ofList_concat]
    exact (written_insert ..).nodup ih

theorem mem_ofList {fields : List (String × Value)} {field : String × Value}
    (listed : field ∈ ofList fields) : field ∈ fields := by
  induction fields using List.reverseRecOn with
  | nil => exact listed
  | append_singleton fields last ih =>
    rw [ofList_concat] at listed
    rcases (written_insert ..).mem listed with rfl | earlier
    · exact List.mem_append_right _ List.mem_cons_self
    · exact List.mem_append_left _ (ih earlier)

end Fields

end Newsreel
