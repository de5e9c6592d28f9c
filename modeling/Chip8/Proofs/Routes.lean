import Chip8.Settings.Change
import Chip8.Proofs.Acceptance
import Chip8.Proofs.JsonTexts
import Mathlib.Data.List.Perm.Basic

/-!
# The routes to settings

Values come in from a record in a file, as given fields or as changes of settings in use. Every way
acceptable values make settings that hold them, and other values are refused with an error of the
check. So all settings in use are acceptable, however they came about.
-/

namespace Chip8

theorem Data.get?_cons (k : PointText) (v : Data) (rest : List (PointText × Data))
    (name : PointText) :
    get? ((k, v) :: rest) name = if k = name then some v else get? rest name := by
  rw [get?, List.find?_cons]
  by_cases same : k = name
  · simp [same]
  · have other : (k == name) = false := by simpa using same
    rw [other, if_neg same]
    rfl

/-- In a record without double names a field has the value that stands beside its name. -/
theorem Data.get?_eq_some_iff {fields : List (PointText × Data)}
    (single : (fields.map Prod.fst).Nodup) (name : PointText) (v : Data) :
    get? fields name = some v ↔ (name, v) ∈ fields := by
  induction fields with
  | nil => simp [get?]
  | cons field rest ih =>
      obtain ⟨k, w⟩ := field
      obtain ⟨new, single⟩ := List.nodup_cons.1 single
      rw [get?_cons]
      by_cases same : k = name
      · subst same
        have absent : (k, v) ∉ rest := fun mem => new (List.mem_map.2 ⟨_, mem, rfl⟩)
        simp [absent, eq_comm]
      · rw [if_neg same, ih single]
        simp [Ne.symm same]

/-- The order of a record without double names does not matter. -/
theorem Data.get?_eq_of_perm {fields fields' : List (PointText × Data)} (h : fields'.Perm fields)
    (single : (fields.map Prod.fst).Nodup) (name : PointText) :
    get? fields' name = get? fields name := by
  have single' : (fields'.map Prod.fst).Nodup := (h.map Prod.fst).nodup_iff.2 single
  apply Option.ext
  intro v
  rw [get?_eq_some_iff single', get?_eq_some_iff single, h.mem_iff]

theorem Draft.override_eq_of_perm (d : Draft) {fields fields' : List (PointText × Data)}
    (h : fields'.Perm fields) (single : (fields.map Prod.fst).Nodup) :
    d.override fields' = d.override fields := by
  funext f
  rw [override, override, Data.get?_eq_of_perm h single]

namespace Settings

/-- Every name of a record is that of a field. -/
def Known (fields : List (PointText × Data)) : Prop :=
  ∀ field ∈ fields, ∃ f : Field, field.1 = PointText.ofString f.name

theorem isSome_ofName?_iff (t : PointText) :
    (Field.ofName? t).isSome ↔ ∃ f : Field, t = PointText.ofString f.name := by
  constructor
  · intro found
    obtain ⟨f, found⟩ := Option.isSome_iff_exists.1 found
    have same := List.find?_some found
    exact ⟨f, (eq_of_beq same).symm⟩
  · rintro ⟨f, rfl⟩
    rw [Field.ofName?_name]
    rfl

theorem Known.isNone_ofName? {fields : List (PointText × Data)} (known : Known fields)
    {field : PointText × Data} (mem : field ∈ fields) :
    (Field.ofName? field.1).isNone = false := by
  have found := (isSome_ofName?_iff _).2 (known field mem)
  simpa using found

theorem Known.ne_ownName {fields : List (PointText × Data)} (known : Known fields)
    {field : PointText × Data} (mem : field ∈ fields) :
    field.1 ≠ PointText.ofString ownName := by
  obtain ⟨f, same⟩ := known field mem
  rw [same]
  cases f <;> decide

/-- The fields of a change that are not absent. -/
def present (changes : List (PointText × Data)) : List (PointText × Data) :=
  changes.filter fun change => !isAbsent change.2

theorem isAbsent_iff (v : Data) : isAbsent v = true ↔ v = .null := by
  cases v <;> simp [isAbsent]

theorem present_eq_self {changes : List (PointText × Data)}
    (given : ∀ change ∈ changes, change.2 ≠ .null) : present changes = changes := by
  rw [present, List.filter_eq_self]
  intro change mem
  have := mt (isAbsent_iff change.2).1 (given change mem)
  simpa using this

section Routes
variable {fields : List (PointText × Data)}

theorem ofRecord_eq (path : String) (known : Known fields) :
    ofRecord path fields = (check (default.draft.override fields)).mapError .settings := by
  have named : (fields.map Prod.fst).filter (fun name => (Field.ofName? name).isNone) = [] := by
    rw [List.filter_eq_nil_iff, List.forall_mem_map]
    intro field mem
    simp [known.isNone_ofName? mem]
  rw [ofRecord, named]
  cases check (default.draft.override fields) <;> rfl

theorem ofFields_eq (known : Known fields) :
    ofFields fields = (check (default.draft.override fields)).mapError .settings := by
  have named : fields.findSome? (fun field => nameError? field.1) = none := by
    rw [List.findSome?_eq_none_iff]
    intro field mem
    simp [nameError?, known.ne_ownName mem, known.isNone_ofName? mem]
  rw [ofFields, named]
  cases check (default.draft.override fields) <;> rfl

theorem replace_eq (s : Settings) (known : Known fields) :
    s.replace fields = (check (s.draft.override (present fields))).mapError .settings := by
  have other : (fields.any fun change => change.1 == PointText.ofString ownName) = false := by
    rw [List.any_eq_false]
    intro field mem
    simpa using known.ne_ownName mem
  have named : (present fields).find? (fun change => (Field.ofName? change.1).isNone) = none := by
    rw [List.find?_eq_none]
    intro field mem
    simp [known.isNone_ofName? (List.mem_of_mem_filter mem)]
  rw [present] at named ⊢
  rw [replace, other, named]
  cases check (s.draft.override (fields.filter fun change => !isAbsent change.2)) <;> rfl

/-- The order in which changes come does not matter. -/
theorem replace_eq_of_perm (s : Settings) {changes changes' : List (PointText × Data)}
    (known : Known changes) (single : (changes.map Prod.fst).Nodup) (h : changes'.Perm changes) :
    s.replace changes' = s.replace changes := by
  have known' : Known changes' := fun change mem => known change (h.mem_iff.1 mem)
  have single' : ((present changes).map Prod.fst).Nodup :=
    single.sublist (List.filter_sublist.map Prod.fst)
  have permuted : (present changes').Perm (present changes) := h.filter _
  rw [replace_eq s known', replace_eq s known, Draft.override_eq_of_perm _ permuted single']

/-- A text stands in a file. -/
def Holds (disk : Disk) (path text : String) : Prop :=
  ∃ bytes, disk.read path = .ok bytes ∧ decodeUtf8 bytes = some text

theorem ofFile_of_refused {disk : Disk} {path text : String} {e : Json.Error}
    (held : Holds disk path text) (refused : Json.read text = .error e) :
    ofFile disk path = .error (.json e) := by
  obtain ⟨bytes, found, decoded⟩ := held
  simp only [ofFile, found, ofBytes, decoded, refused]

theorem ofFile_eq {disk : Disk} {path text : String} (held : Holds disk path text)
    (read : Json.read text = .ok (.record fields)) (known : Known fields) :
    ofFile disk path = (check (default.draft.override fields)).mapError .settings := by
  obtain ⟨bytes, found, decoded⟩ := held
  rw [← ofRecord_eq path known]
  simp only [ofFile, found, ofBytes, decoded, read]

end Routes

section Attained

/-- The settings that a program may come to use: the default ones, those of given fields, those
of a file, and what changes make of settings in use. -/
inductive Attained : Settings → Prop
  | default : Attained default
  | fields (given : List (PointText × Data)) (s : Settings) (made : ofFields given = .ok s) :
      Attained s
  | file (disk : Disk) (path : String) (s : Settings) (made : ofFile disk path = .ok s) : Attained s
  | change (s t : Settings) (changes : List (PointText × Data)) (before : Attained s)
      (made : s.replace changes = .ok t) : Attained t

/-- What a route makes of a draft has passed the check. -/
theorem check_of_passed {ε : Type} {refusal : Error → ε} {d : Draft} {s : Settings}
    (made : (match check d with
      | .ok settings => .ok settings
      | .error e => .error (refusal e)) = (.ok s : Except ε Settings)) : check d = .ok s := by
  split at made
  next checked =>
    cases made
    exact checked
  next => cases made

theorem exists_check_of_ofFields {given : List (PointText × Data)} {s : Settings}
    (made : ofFields given = .ok s) : ∃ d, check d = .ok s := by
  unfold ofFields at made
  split at made
  · cases made
  · exact ⟨_, check_of_passed made⟩

theorem exists_check_of_replace {s t : Settings} {changes : List (PointText × Data)}
    (made : s.replace changes = .ok t) : ∃ d, check d = .ok t := by
  simp only [replace] at made
  split at made
  · cases made
  · split at made
    · cases made
    · exact ⟨_, check_of_passed made⟩

theorem check_of_ofRecord {path : String} {record : List (PointText × Data)} {s : Settings}
    (made : ofRecord path record = .ok s) : check (default.draft.override record) = .ok s := by
  unfold ofRecord at made
  split at made
  · exact check_of_passed made
  · cases made

/-- A file that makes settings holds a record whose values pass the check. -/
theorem exists_record_of_ofFile {disk : Disk} {path : String} {s : Settings}
    (made : ofFile disk path = .ok s) :
    ∃ text record, Holds disk path text ∧ Json.read text = .ok (.record record) ∧
      check (default.draft.override record) = .ok s := by
  unfold ofFile at made
  split at made
  · cases made
  next bytes found =>
    unfold ofBytes at made
    split at made
    · cases made
    next text decoded =>
      split at made
      · cases made
      next record read => exact ⟨text, record, ⟨bytes, found, decoded⟩, read, check_of_ofRecord made⟩
      · cases made

theorem Attained.exists_check {s : Settings} (h : Attained s) : ∃ d, check d = .ok s := by
  cases h with
  | default =>
      refine ⟨Settings.default.draft, (check_eq_ok_iff _ _).2 ⟨?_, rfl⟩⟩
      rw [acceptable_draft_iff]
      refine ⟨by decide, by decide, by decide, by decide, ?_⟩
      exact ⟨by decide, by decide⟩
  | fields given s made => exact exists_check_of_ofFields made
  | file disk path s made =>
      obtain ⟨text, record, -, -, checked⟩ := exists_record_of_ofFile made
      exact ⟨_, checked⟩
  -- Every change is checked as a whole, so the settings before it do not matter.
  | change s t changes before made => exact exists_check_of_replace made

theorem Attained.acceptable {s : Settings} (h : Attained s) : Acceptable s.draft := by
  obtain ⟨d, checked⟩ := h.exists_check
  obtain ⟨acceptable, same⟩ := (check_eq_ok_iff d s).1 checked
  exact same.symm ▸ acceptable

end Attained

section Agreement

/-- Settings come to the same from given fields, from a file and by a change: the acceptable values
make settings that hold them, and others are refused by the check. So all settings in use are
acceptable and have a bounded number of ticks in a frame. -/
theorem routes_agree :
    (∀ (disk : Disk) (path text : String) (given : List (PointText × Data)),
      Holds disk path text → Json.read text = .ok (.record given) → Known given →
        Judges FileError.settings (default.draft.override given) (ofFile disk path) ∧
        ((∀ field ∈ given, field.2 ≠ .null) →
          ∃ r : Except Error Settings, ofFile disk path = r.mapError .settings ∧
            default.replace given = r.mapError .settings)) ∧
    (∀ given : List (PointText × Data), Known given →
      Judges ChangeError.settings (default.draft.override given) (ofFields given)) ∧
    (∀ (s : Settings) (changes : List (PointText × Data)), Known changes →
      Judges ChangeError.settings (s.draft.override (present changes)) (s.replace changes) ∧
      ((changes.map Prod.fst).Nodup → ∀ changes' : List (PointText × Data),
        changes'.Perm changes → s.replace changes' = s.replace changes)) ∧
    (∀ s, Attained s → Acceptable s.draft ∧ 1 ≤ s.ticksPerFrame ∧
      s.frameRate * s.ticksPerFrame ≤ max s.clockHz s.frameRate) := by
  refine ⟨?_, ?_, ?_, ?_⟩
  · intro disk path text given held read known
    refine ⟨?_, fun filled => ⟨check (default.draft.override given), ?_, ?_⟩⟩
    · rw [ofFile_eq held read known]
      exact judges_check _ _
    · exact ofFile_eq held read known
    · rw [replace_eq default known, present_eq_self filled]
  · intro given known
    rw [ofFields_eq known]
    exact judges_check _ _
  · intro s changes known
    refine ⟨?_, fun single changes' permuted => replace_eq_of_perm s known single permuted⟩
    rw [replace_eq s known]
    exact judges_check _ _
  · intro s attained
    have acceptable := attained.acceptable
    exact ⟨acceptable, ((acceptable_draft_iff s).1 acceptable).ticks⟩

theorem decodeUtf8_toUTF8 (text : String) : decodeUtf8 text.toUTF8.data.toList = some text := by
  simp only [decodeUtf8, String.fromUTF8?, String.toUTF8_eq_toByteArray]
  exact dif_pos text.isValidUTF8

/-- The disk with a settings file in the working directory. -/
def withSettings (text : String) : Disk :=
  Disk.empty.put ["work", "s.json"] (.file text.toUTF8.data.toList)

theorem holds_withSettings (text : String) : Holds (withSettings text) "s.json" text :=
  ⟨text.toUTF8.data.toList, rfl, decodeUtf8_toUTF8 text⟩

/-- A record with a scale. -/
def scaleRecord (n : Nat) : List (PointText × Data) :=
  [(PointText.ofString Field.scale.name, .int n)]

theorem known_scaleRecord (n : Nat) : Known (scaleRecord n) := by
  intro field mem
  rw [scaleRecord, List.mem_singleton] at mem
  exact ⟨.scale, mem ▸ rfl⟩

/-- The disk with a settings file that gives the scale. -/
def scaleDisk (n : Nat) : Disk := withSettings (Json.scaleText (toString n))

theorem read_scaleRecord {n : Nat} (short : (Nat.toDigits 10 n).length ≤ Json.longest) :
    Json.read (Json.scaleText (toString n)) = .ok (.record (scaleRecord n)) := by
  rw [Json.read_scaleText_toString, Json.integer, if_neg (Nat.not_lt.2 short)]
  rfl

/-- Changes of which one is absent. -/
def clockChange : List (PointText × Data) :=
  [(PointText.ofString Field.volume.name, .null), (PointText.ofString Field.clockHz.name, .int 30)]

theorem known_clockChange : Known clockChange := by
  intro field mem
  rcases List.mem_pair.1 mem with rfl | rfl
  · exact ⟨.volume, rfl⟩
  · exact ⟨.clockHz, rfl⟩

theorem routes_agree_of_scale :
    Judges FileError.settings (default.draft.override (scaleRecord 8))
      (ofFile (scaleDisk 8) "s.json") ∧
    (∃ r : Except Error Settings, ofFile (scaleDisk 8) "s.json" = r.mapError .settings ∧
      default.replace (scaleRecord 8) = r.mapError .settings) ∧
    Judges ChangeError.settings (default.draft.override clockChange) (ofFields clockChange) ∧
    Judges ChangeError.settings (default.draft.override (present clockChange))
      (default.replace clockChange) ∧
    default.replace clockChange.reverse = default.replace clockChange ∧
    Acceptable default.draft := by
  have held := holds_withSettings (Json.scaleText (toString 8))
  have file := routes_agree.1 _ _ _ _ held (read_scaleRecord (by decide)) (known_scaleRecord 8)
  have fields := routes_agree.2.1 clockChange known_clockChange
  have change := routes_agree.2.2.1 default clockChange known_clockChange
  refine ⟨file.1, file.2 ?_, fields, change.1, change.2 (by decide) _ (List.reverse_perm _), ?_⟩
  · intro field mem
    rw [scaleRecord, List.mem_singleton] at mem
    rw [mem]
    rintro ⟨⟩
  · exact (routes_agree.2.2.2 default .default).1

theorem length_toDigits_pow (k : Nat) : (Nat.toDigits 10 (10 ^ k)).length = k + 1 := by
  apply Nat.le_antisymm
  · exact (Nat.length_toDigits_le_iff (by omega) (by omega)).2 (Nat.pow_lt_pow_succ (by omega))
  · cases k with
    | zero => decide
    | succ k =>
        have long := mt (Nat.length_toDigits_le_iff (by omega) (by omega : 0 < k + 1)).1
          (Nat.lt_irrefl (10 ^ (k + 1)))
        omega

theorem acceptable_scaleRecord {n : Nat} (h : 1 ≤ n) :
    Acceptable (default.draft.override (scaleRecord n)) := by
  have same : ({ default with scale := n } : Settings).draft =
      default.draft.override (scaleRecord n) := by
    funext f
    cases f <;> rfl
  rw [← same, acceptable_draft_iff]
  have range := (acceptable_draft_iff default).1 Attained.default.acceptable
  exact { range with scale := by simpa using h }

/-- A scale of more digits than the reader takes is acceptable, but its file is refused. -/
theorem long_scale_is_refused :
    Acceptable (default.draft.override (scaleRecord (10 ^ Json.longest))) ∧
      (∃ s, default.replace (scaleRecord (10 ^ Json.longest)) = .ok s) ∧
      Holds (scaleDisk (10 ^ Json.longest)) "s.json"
        (Json.scaleText (toString (10 ^ Json.longest))) ∧
      ofFile (scaleDisk (10 ^ Json.longest)) "s.json" =
        .error (.json (.longInteger (Json.longest + 1))) := by
  have acceptable := acceptable_scaleRecord (Nat.pow_pos (n := Json.longest) (by omega : 0 < 10))
  have refused : Json.read (Json.scaleText (toString (10 ^ Json.longest))) =
      .error (.longInteger (Json.longest + 1)) := by
    rw [Json.read_scaleText_toString, Json.integer, length_toDigits_pow, if_pos (by omega)]
    rfl
  obtain ⟨s, same⟩ := acceptable.exists_draft
  refine ⟨acceptable, ⟨s, ?_⟩, holds_withSettings _, ?_⟩
  · have filled : present (scaleRecord (10 ^ Json.longest)) = scaleRecord (10 ^ Json.longest) := rfl
    rw [replace_eq _ (known_scaleRecord _), filled, (check_eq_ok_iff _ s).2 ⟨acceptable, same⟩]
    rfl
  · exact ofFile_of_refused (holds_withSettings _) refused

end Agreement

end Settings

end Chip8
