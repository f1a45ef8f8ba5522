import Mathlib.Data.List.Forall2
import Newsreel.Web.Charset

/-!
Texts in an encoding and back.

An encoding writes exactly the texts whose characters it has, and what it writes is read back as the
text. A label is one of the names of an encoding with letters of either case, and underscores for any of
its hyphens; no other text names an encoding.
-/

namespace Newsreel.Web

/-! ## Bytes of UTF-8 -/

theorem toList_bytes (bytes : ByteArray) : bytes.toList = bytes.data.toList := by
  have loop (count : Nat) : ∀ i read, bytes.size - i = count → i ≤ bytes.size →
      ByteArray.toList.loop bytes i read = read.reverse ++ bytes.data.toList.drop i := by
    induction count with
    | zero =>
      intro i read none inside
      have done : bytes.data.toList.drop i = [] := by
        apply List.drop_of_length_le
        change bytes.size ≤ i
        omega
      rw [ByteArray.toList.loop, if_neg (by omega), done, List.append_nil]
    | succ count ih =>
      intro i read some inside
      have here : i < bytes.size := by omega
      have inList : i < bytes.data.toList.length := here
      have byte : bytes.get! i = bytes.data.toList[i] := by
        simp [ByteArray.get!, getElem!_pos bytes.data i here]
      rw [ByteArray.toList.loop, if_pos here, ih _ _ (by omega) here, byte,
        List.drop_eq_getElem_cons inList]
      simp
  simpa [ByteArray.toList] using loop bytes.size 0 [] rfl (Nat.zero_le _)

/-- An ASCII character is one byte of UTF-8. -/
theorem toList_utf8Encode_of_ascii {cs : List Char} (ascii : ∀ c ∈ cs, c.toNat < 128) :
    cs.utf8Encode.data.toList = cs.map fun c => c.toNat.toUInt8 := by
  induction cs with
  | nil => rfl
  | cons c cs ih =>
    have one : c.utf8Size = 1 := by
      rw [Char.utf8Size_eq_one_iff, UInt32.le_iff_toNat_le]
      exact Nat.le_of_lt_succ (ascii c List.mem_cons_self)
    rw [List.utf8Encode_cons, ByteArray.toList_data_append, List.utf8Encode_singleton,
      String.utf8EncodeChar_eq_singleton one, List.toList_data_toByteArray,
      ih fun d member => ascii d (List.mem_cons_of_mem c member)]
    rfl

namespace Charset

/-! ## Writing and reading back -/

/-- The encoding has the character. -/
def CanWrite : Charset → Char → Prop
  | .utf8, _ => True
  | .ascii, c => c.toNat < 128
  | .latin1, c => c.toNat < 256

/-- The text that some bytes stand for, if they stand for one. -/
def decode? : Charset → List UInt8 → Option String
  | .utf8, bytes => String.fromUTF8? bytes.toByteArray
  | .ascii, bytes =>
    if bytes.all fun b => b.toNat < 128 then
      some (String.ofList (bytes.map fun b => Char.ofNat b.toNat))
    else none
  | .latin1, bytes => some (String.ofList (bytes.map fun b => Char.ofNat b.toNat))

/-- The characters below 256 have the numbers of their bytes. -/
theorem map_ofNat_bytes {cs : List Char} (small : ∀ c ∈ cs, c.toNat < 256) :
    (cs.map fun c => c.toNat.toUInt8).map (fun b => Char.ofNat b.toNat) = cs := by
  rw [List.map_map]
  have same : ∀ c ∈ cs, ((fun b : UInt8 => Char.ofNat b.toNat) ∘ fun c => c.toNat.toUInt8) c = c := by
    intro c member
    simp [Nat.mod_eq_of_lt (small c member)]
  rw [List.map_congr_left same, List.map_id'']
  exact fun _ => rfl

theorem latin1Bytes_of_small {cs : List Char} (small : ∀ c ∈ cs, c.toNat < 256) :
    latin1Bytes cs = .ok (cs.map fun c => c.toNat.toUInt8) := by
  induction cs with
  | nil => rfl
  | cons c cs ih =>
    rw [List.forall_mem_cons] at small
    rw [latin1Bytes, if_pos small.1, ih small.2]
    rfl

/-- The first character that is not small is complained about. -/
theorem latin1Bytes_of_not_small {cs : List Char} (large : ¬∀ c ∈ cs, c.toNat < 256) :
    ∃ c ∈ cs, latin1Bytes cs = .error c := by
  induction cs with
  | nil => exact absurd (List.forall_mem_nil _) large
  | cons c cs ih =>
    by_cases first : c.toNat < 256
    · obtain ⟨d, member, failed⟩ := ih fun small => large (List.forall_mem_cons.mpr ⟨first, small⟩)
      refine ⟨d, List.mem_cons_of_mem c member, ?_⟩
      rw [latin1Bytes, if_pos first, failed]
      rfl
    · exact ⟨c, List.mem_cons_self, by rw [latin1Bytes, if_neg first]⟩

theorem decode?_toUTF8 (text : String) : decode? .utf8 text.toUTF8.toList = some text := by
  have same : text.toUTF8.toList.toByteArray = text.toByteArray := by
    rw [toList_bytes, String.toUTF8_eq_toByteArray]
    apply ByteArray.ext
    simp
  rw [decode?, same, String.fromUTF8?, dif_pos text.isValidUTF8]
  rfl

/-- A text of which the encoding has all characters is written, and read back from what is written. -/
theorem encode_of_canWrite {charset : Charset} {text : String}
    (has : ∀ c ∈ text.toList, charset.CanWrite c) :
    ∃ bytes, charset.encode text = .ok bytes ∧ charset.decode? bytes = some text := by
  cases charset with
  | utf8 => exact ⟨_, rfl, decode?_toUTF8 text⟩
  | ascii =>
    have small : ∀ c ∈ text.toList, c.toNat < 256 := fun c member =>
      Nat.lt_trans (has c member) (by decide)
    have written : text.toList.all (fun c => c.toNat < 128) = true := by
      simpa [CanWrite] using has
    have readable : (text.toList.map fun c => c.toNat.toUInt8).all (fun b => b.toNat < 128) = true := by
      simp only [List.all_map, List.all_eq_true, decide_eq_true_eq, Function.comp_apply]
      intro c member
      simpa [CanWrite, Nat.mod_eq_of_lt (small c member)] using has c member
    refine ⟨text.toList.map fun c => c.toNat.toUInt8, by rw [encode, if_pos written], ?_⟩
    rw [decode?, if_pos readable, map_ofNat_bytes small, String.ofList_toList]
  | latin1 =>
    refine ⟨text.toList.map fun c => c.toNat.toUInt8, ?_, ?_⟩
    · rw [encode, latin1Bytes_of_small has]
      rfl
    · rw [decode?, map_ofNat_bytes has, String.ofList_toList]

theorem encode_of_not_canWrite {charset : Charset} {text : String}
    (lacks : ¬∀ c ∈ text.toList, charset.CanWrite c) :
    ∃ fault, charset.encode text = .error fault := by
  cases charset with
  | utf8 => exact absurd (fun c _ => trivial) lacks
  | ascii =>
    refine ⟨.notAscii, ?_⟩
    rw [encode, if_neg]
    simpa [CanWrite] using lacks
  | latin1 =>
    obtain ⟨c, -, failed⟩ := latin1Bytes_of_not_small lacks
    exact ⟨.notLatin1 c, by rw [encode, failed]; rfl⟩

/-- Every encoding writes ASCII characters as the bytes with their numbers. -/
theorem encode_of_ascii (charset : Charset) {text : String}
    (ascii : ∀ c ∈ text.toList, c.toNat < 128) :
    charset.encode text = .ok (text.toList.map fun c => c.toNat.toUInt8) := by
  cases charset with
  | utf8 =>
    rw [encode, toList_bytes, String.toUTF8_eq_toByteArray, ← String.utf8Encode_toList,
      toList_utf8Encode_of_ascii ascii]
  | ascii =>
    rw [encode, if_pos]
    simpa using ascii
  | latin1 =>
    rw [encode, latin1Bytes_of_small fun c member => Nat.lt_trans (ascii c member) (by decide)]
    rfl

/-! ## Labels -/

/-- The names of an encoding, in small letters. -/
def names : Charset → List String
  | .utf8 => ["utf-8", "utf8"]
  | .ascii => ["ascii", "us-ascii"]
  | .latin1 => ["latin-1", "latin1", "iso-8859-1"]

/-- A character of a label may stand for a character of a name. -/
def StandsFor (written named : Char) : Prop :=
  written.toLower = named ∨ written = '_' ∧ named = '-'

/-- The label is a name of the encoding but for the case of letters and the form of its hyphens. -/
def IsNamedBy (charset : Charset) (label : String) : Prop :=
  ∃ name ∈ charset.names, List.Forall₂ StandsFor label.toList name.toList

theorem toLower_eq_underscore {c : Char} (small : c.toLower = '_') : c = '_' := by
  unfold Char.toLower at small
  split at small
  · next capital =>
    -- A capital is moved to the small letters, which lie behind the underscore.
    have number := congrArg (fun d : Char => d.val.toNat) small
    have low := UInt32.le_iff_toNat_le.mp capital.1
    have high := UInt32.le_iff_toNat_le.mp capital.2
    simp at number low high
    omega
  · exact small

theorem standsFor_iff {written named : Char} (hyphen : named ≠ '_') :
    StandsFor written named ↔
      (if written.toLower = '_' then '-' else written.toLower) = named := by
  unfold StandsFor
  by_cases underscore : written.toLower = '_'
  · rw [if_pos underscore, underscore, toLower_eq_underscore underscore]
    simp [Ne.symm hyphen, eq_comm]
  · have other : written ≠ '_' := by
      rintro rfl
      exact underscore rfl
    simp [underscore, other]

theorem normalLabel_eq_iff {label name : String} (hyphens : '_' ∉ name.toList) :
    normalLabel label = name ↔ List.Forall₂ StandsFor label.toList name.toList := by
  rw [← String.toList_inj]
  simp only [normalLabel, Text.lowerAscii, String.toList_ofList, List.map_map]
  generalize name.toList = ds at hyphens ⊢
  generalize label.toList = cs
  induction cs generalizing ds with
  | nil => cases ds <;> simp
  | cons c cs ih =>
    cases ds with
    | nil => simp
    | cons d ds =>
      rw [List.mem_cons, not_or] at hyphens
      rw [List.map_cons, List.cons.injEq, List.forall₂_cons, ih ds hyphens.2,
        standsFor_iff (Ne.symm hyphens.1)]
      rfl

theorem ofLabel?_eq_some_iff {label : String} {charset : Charset} :
    ofLabel? label = some charset ↔ charset.IsNamedBy label := by
  have named : charset.IsNamedBy label ↔ normalLabel label ∈ charset.names := by
    have hyphens : ∀ name ∈ charset.names, '_' ∉ name.toList := by
      cases charset <;> decide
    constructor
    · rintro ⟨name, member, spelled⟩
      rwa [(normalLabel_eq_iff (hyphens name member)).mpr spelled]
    · intro member
      exact ⟨_, member, (normalLabel_eq_iff (hyphens _ member)).mp rfl⟩
  rw [named, ofLabel?]
  split <;> cases charset <;> simp_all [names]

end Charset

/-- Every label names the encoding that it spells, but for the case of letters and the form of hyphens,
and no other label is known. Under a label exactly those texts are written whose characters the encoding
has; what is written is read back as the text, so no two texts are written alike; and ASCII texts come
out the same under all labels. -/
theorem encode_faithful (label : String) :
    (∀ charset : Charset, charset.IsNamedBy label → ∀ text,
      ((∃ bytes, encode text label = .ok bytes) ↔ ∀ c ∈ text.toList, charset.CanWrite c) ∧
      (∀ bytes, encode text label = .ok bytes → charset.decode? bytes = some text) ∧
      (∀ other bytes, encode text label = .ok bytes → encode other label = .ok bytes →
        other = text) ∧
      ((∀ c ∈ text.toList, c.toNat < 128) →
        encode text label = .ok (text.toList.map fun c => c.toNat.toUInt8))) ∧
    ((∀ charset : Charset, ¬charset.IsNamedBy label) → ∀ text,
      encode text label = .error (.invalidValue "body_encoding"
        (.unsupportedEncoding (Charset.normalLabel label)))) := by
  constructor
  · intro charset named
    have known := Charset.ofLabel?_eq_some_iff.mpr named
    have written (text : String) {bytes : List UInt8} :
        encode text label = .ok bytes ↔ charset.encode text = .ok bytes := by
      cases outcome : charset.encode text <;> simp [encode, known, outcome, Except.mapError]
    have decoded {text : String} {bytes : List UInt8} (success : encode text label = .ok bytes) :
        charset.decode? bytes = some text := by
      rw [written] at success
      by_cases has : ∀ c ∈ text.toList, charset.CanWrite c
      · obtain ⟨_, same, back⟩ := Charset.encode_of_canWrite has
        cases same.symm.trans success
        exact back
      · obtain ⟨fault, failed⟩ := Charset.encode_of_not_canWrite has
        cases failed.symm.trans success
    intro text
    refine ⟨⟨?_, ?_⟩, fun bytes => decoded, ?_, ?_⟩
    · rintro ⟨bytes, success⟩
      by_contra lacks
      obtain ⟨fault, failed⟩ := Charset.encode_of_not_canWrite lacks
      cases failed.symm.trans ((written text).mp success)
    · intro has
      obtain ⟨bytes, success, -⟩ := Charset.encode_of_canWrite has
      exact ⟨bytes, (written text).mpr success⟩
    · intro other bytes success same
      exact Option.some.inj ((decoded same).symm.trans (decoded success))
    · intro ascii
      exact (written text).mpr (charset.encode_of_ascii ascii)
  · intro unknown text
    have none : Charset.ofLabel? label = none := by
      rw [Option.eq_none_iff_forall_ne_some]
      intro charset known
      exact unknown charset (Charset.ofLabel?_eq_some_iff.mp known)
    rw [encode, none]

/-- Under a label with a capital and an underscore an umlaut is written and read back, but no euro sign;
a label of some other encoding is not known. -/
theorem encode_faithful_umlaut :
    Charset.latin1.IsNamedBy "Iso_8859-1" ∧
    (∃ bytes, encode "kühl" "Iso_8859-1" = .ok bytes ∧
      Charset.latin1.decode? bytes = some "kühl") ∧
    (¬∃ bytes, encode "5 €" "Iso_8859-1" = .ok bytes) ∧
    encode "sun" "Iso_8859-1" = .ok [115, 117, 110] ∧
    encode "sun" "ebcdic" =
      .error (.invalidValue "body_encoding" (.unsupportedEncoding "ebcdic")) := by
  have named : Charset.latin1.IsNamedBy "Iso_8859-1" := Charset.ofLabel?_eq_some_iff.mp rfl
  have unknown : ∀ charset : Charset, ¬charset.IsNamedBy "ebcdic" := by
    intro charset spelled
    cases Charset.ofLabel?_eq_some_iff.mpr spelled
  have faithful := (encode_faithful "Iso_8859-1").1 .latin1 named
  refine ⟨named, ?_, ?_, ?_, ?_⟩
  · obtain ⟨bytes, success⟩ := (faithful "kühl").1.mpr (by simp [Charset.CanWrite])
    exact ⟨bytes, success, (faithful "kühl").2.1 bytes success⟩
  · intro success
    have has := (faithful "5 €").1.mp success '€' (by decide)
    simp [Charset.CanWrite] at has
  · exact (faithful "sun").2.2.2 (by simp)
  · exact (encode_faithful "ebcdic").2 unknown "sun"

end Newsreel.Web
