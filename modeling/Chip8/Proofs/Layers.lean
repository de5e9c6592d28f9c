import Chip8.Proofs.Configurations

/-!
# The layers of a run's settings

The settings of a run are told field by field: what a flag gives comes before what the settings
file gives, and that before the default. The file is checked without the flags, so a flag does not
make up for a bad value in it. Over a good file only the two flags for numbers can be refused.
-/

namespace Chip8

open Settings CommandLine

theorem Field.ofString_name_inj {f g : Field} :
    PointText.ofString f.name = PointText.ofString g.name ↔ f = g := by
  constructor
  · intro same
    have found := congrArg Field.ofName? same
    rw [ofName?_name, ofName?_name] at found
    exact Option.some.inj found
  · rintro rfl
    rfl

namespace Settings

theorem present_cons_of_ne_null {v : Data} (there : v ≠ .null) (name : PointText)
    (changes : List (PointText × Data)) :
    present ((name, v) :: changes) = (name, v) :: present changes := by
  have kept : (!isAbsent v) = true := by simpa using mt (isAbsent_iff v).1 there
  exact List.filter_cons_of_pos kept

/-- Of changes to some fields the absent ones are passed over, and no other field is changed. -/
theorem get?_present_map {v : Field → Option Data} (filled : ∀ f, v f ≠ some .null)
    (fields : List Field) (g : Field) :
    Data.get? (present (fields.map fun f => (PointText.ofString f.name, (v f).getD .null)))
      (PointText.ofString g.name) = if g ∈ fields then v g else none := by
  induction fields with
  | nil => rfl
  | cons f fields ih =>
      rw [List.map_cons]
      cases given : v f with
      | none =>
          have passed (name : PointText) (changes : List (PointText × Data)) :
              present ((name, .null) :: changes) = present changes := rfl
          rw [Option.getD_none, passed, ih]
          by_cases same : g = f
          · simp [same, given]
          · simp [same]
      | some w =>
          have there : w ≠ .null := fun null => filled f (null ▸ given)
          rw [Option.getD_some, present_cons_of_ne_null there, Data.get?_cons, ih]
          simp only [Field.ofString_name_inj]
          by_cases same : g = f
          · simp [same, given]
          · simp [same, Ne.symm same]

theorem draft_injective {s t : Settings} (h : s.draft = t.draft) : s = t := by
  have read := congrArg ofDraft h
  rw [ofDraft_draft, ofDraft_draft] at read
  exact Except.ok.inj read

end Settings

namespace CommandLine

/-- A flag for a number gives one of at least one. -/
def Given.IsPositive : Given → Prop
  | number i => 1 ≤ i
  | blank => False

theorem Given.isPositive_iff (g : Given) : g.IsPositive ↔ ∃ i, g.data = .int i ∧ 1 ≤ i := by
  cases g <;> simp [IsPositive, data]

namespace RunArguments
variable {d : Disk} {a : RunArguments} {s : Settings} {given given' : List (PointText × Data)}

/-- The value that a flag gives to a field, if there is such a flag and it was given. -/
def flagged (a : RunArguments) : Field → Option Data
  | .scale => a.scale.map Given.data
  | .clockHz => a.clockHz.map Given.data
  | .fgColor => a.scheme.map fun scheme => colorData scheme.color
  | .glow => if a.noGlow then some (.bool false) else none
  | _ => none

/-- The settings file is a record, or none is named and the record is empty. -/
def FileGives (d : Disk) (a : RunArguments) (given : List (PointText × Data)) : Prop :=
  match a.config with
  | none => given = []
  | some path => ∃ text, Holds d path.text text ∧ Json.read text = .ok (.record given)

/-- For every field the value of its flag, else that of the file, else the default. -/
def layered (a : RunArguments) (given : List (PointText × Data)) : Draft := fun f =>
  (a.flagged f).getD ((Data.get? given (PointText.ofString f.name)).getD (default.draft f))

/-- A settings file holds one record. -/
theorem FileGives.eq (h : a.FileGives d given) (h' : a.FileGives d given') : given' = given := by
  unfold FileGives at h h'
  cases config : a.config with
  | none =>
      rw [config] at h h'
      exact h'.trans h.symm
  | some path =>
      rw [config] at h h'
      obtain ⟨text, ⟨bytes, found, decoded⟩, read⟩ := h
      obtain ⟨text', ⟨bytes', found', decoded'⟩, read'⟩ := h'
      cases found.symm.trans found'
      cases decoded.symm.trans decoded'
      cases read.symm.trans read'
      rfl

theorem flagged_ne_null (a : RunArguments) (f : Field) : a.flagged f ≠ some .null := by
  have number (g : Option Given) : g.map Given.data ≠ some .null := by
    rcases g with _ | ⟨i⟩ | _ <;> simp [Given.data]
  cases f with
  | scale | clockHz => exact number _
  | fgColor => simp [flagged, colorData]
  | glow => simp [flagged]
  | _ => simp [flagged]

theorem get?_changes (a : RunArguments) (f : Field) :
    Data.get? (present a.changes) (PointText.ofString f.name) = a.flagged f := by
  have whole : a.changes = [Field.scale, .clockHz, .fgColor, .glow].map fun f =>
      (PointText.ofString f.name, (a.flagged f).getD .null) := by
    obtain ⟨rom, config, scale, clock, scheme, noGlow⟩ := a
    cases scale <;> cases clock <;> cases scheme <;> cases noGlow <;> rfl
  rw [whole, get?_present_map a.flagged_ne_null]
  cases f <;> rfl

/-- The settings under the flags hold what the file gives. -/
theorem draft_of_base (found : a.base d = .ok s) :
    Acceptable s.draft ∧ ∃ given, a.FileGives d given ∧ s.draft = default.draft.override given := by
  unfold base at found
  split at found
  next path config =>
    obtain ⟨text, given, held, read, checked⟩ := exists_record_of_ofFile found
    obtain ⟨acceptable, same⟩ := (check_eq_ok_iff _ _).1 checked
    have gives : a.FileGives d given := by
      rw [FileGives, config]
      exact ⟨text, held, read⟩
    exact ⟨same ▸ acceptable, given, gives, same⟩
  next config =>
    cases found
    have gives : a.FileGives d [] := by rw [FileGives, config]
    exact ⟨Attained.default.acceptable, [], gives, rfl⟩

/-- Over acceptable values only the flags for numbers can be refused. -/
theorem acceptable_flagged_iff {base : Draft} (h : Acceptable base) (a : RunArguments) :
    Acceptable (fun f => (a.flagged f).getD (base f)) ↔
      ∀ g, a.scale = some g ∨ a.clockHz = some g → g.IsPositive := by
  rw [acceptable_iff] at h ⊢
  constructor
  · intro accepts g flag
    rw [g.isPositive_iff]
    rcases flag with scale | clock
    · have accepted := accepts .scale
      rwa [flagged, scale] at accepted
    · have accepted := accepts .clockHz
      rwa [flagged, clock] at accepted
  · intro positive f
    cases flag : a.flagged f with
    | none => exact h f
    | some v =>
        cases f with
        | scale =>
            obtain ⟨g, scale, rfl⟩ := Option.map_eq_some_iff.1 flag
            exact g.isPositive_iff.1 (positive g (.inl scale))
        | clockHz =>
            obtain ⟨g, clock, rfl⟩ := Option.map_eq_some_iff.1 flag
            exact g.isPositive_iff.1 (positive g (.inr clock))
        | fgColor =>
            obtain ⟨scheme, -, rfl⟩ := Option.map_eq_some_iff.1 flag
            exact (isColor_iff _).2 ⟨_, rfl⟩
        | glow =>
            obtain ⟨-, same⟩ := Option.ite_none_right_eq_some.1 flag
            exact ⟨false, (Option.some.inj same).symm⟩
        | _ => cases flag

/-- The flags are laid over the settings under them, and the outcome is checked. -/
theorem judges_settings (found : a.base d = .ok s) :
    Judges (fun e => .change (.settings e)) (fun f => (a.flagged f).getD (s.draft f))
      (a.settings d) := by
  have overlaid : s.draft.override (present a.changes) =
      fun f => (a.flagged f).getD (s.draft f) := by
    funext f
    rw [Draft.override, get?_changes]
  have settings : a.settings d =
      (check (s.draft.override (present a.changes))).mapError fun e => .change (.settings e) := by
    rw [RunArguments.settings, found]
    simp only [replace_eq s (known_changes a)]
    cases check (s.draft.override (present a.changes)) <;> rfl
  rw [settings, overlaid]
  exact judges_check _ _

/-- Over a settings file that is accepted on its own, or none, a run has settings exactly if every
flag for a number gives one of at least one. Its settings are those of the layers. A file that is
refused on its own keeps the run from its settings, whatever the flags are. -/
theorem settings_layered (d : Disk) (a : RunArguments) :
    (∀ s, a.base d = .ok s →
      ((∃ t, a.settings d = .ok t) ↔
        ∀ g, a.scale = some g ∨ a.clockHz = some g → g.IsPositive) ∧
      ∃ given, a.FileGives d given ∧ ∀ t, a.settings d = .ok t → t.draft = a.layered given) ∧
    ∀ e, a.base d = .error e → a.settings d = .error (.file e) := by
  constructor
  · intro s found
    obtain ⟨acceptable, given, gives, same⟩ := draft_of_base found
    have judged := judges_settings found
    refine ⟨judged.accepts.trans (acceptable_flagged_iff acceptable a), given, gives, ?_⟩
    rw [same] at judged
    exact judged.values
  · intro e refused
    rw [RunArguments.settings, refused]

/-- A run with a settings file and flags for the speed, the colour and the glow. -/
def amber (scale : Option Given) : RunArguments :=
  ⟨Path.ofString "game.ch8", some (Path.ofString "s.json"), scale, some (.number 700),
    some .amber, true⟩

theorem base_amber (scale : Option Given) {n : Nat}
    (short : (Nat.toDigits 10 n).length ≤ Json.longest) :
    (amber scale).base (scaleDisk n) =
      (check (default.draft.override (scaleRecord n))).mapError .settings :=
  ofFile_eq (holds_withSettings _) (read_scaleRecord short) (known_scaleRecord n)

/-- The scale of the file stands beside what the flags give. A file with a scale of zero is refused,
also with a flag for the scale. -/
theorem settings_layered_of_amber :
    (amber none).settings (scaleDisk 8) =
      .ok { Settings.default with
        scale := 8, clockHz := 700, fgColor := Scheme.amber.color, glow := false } ∧
    ∃ e, (amber (some (.number 3))).settings (scaleDisk 0) = .error (.file e) := by
  constructor
  · have acceptable := acceptable_scaleRecord (n := 8) (by decide)
    obtain ⟨s, same⟩ := acceptable.exists_draft
    have found : (amber none).base (scaleDisk 8) = .ok s := by
      rw [base_amber none (by decide), (check_eq_ok_iff _ s).2 ⟨acceptable, same⟩]
      rfl
    obtain ⟨succeeds, given, gives, values⟩ := (settings_layered _ _).1 s found
    have positive : ∀ g, (amber none).scale = some g ∨ (amber none).clockHz = some g →
        g.IsPositive := by
      rintro g (scale | clock)
      · cases scale
      · cases clock
        exact (by decide : (1 : Int) ≤ 700)
    obtain ⟨t, made⟩ := succeeds.2 positive
    have record : (amber none).FileGives (scaleDisk 8) (scaleRecord 8) :=
      ⟨_, holds_withSettings _, read_scaleRecord (by decide)⟩
    obtain rfl := record.eq gives
    rw [made]
    apply congrArg Except.ok
    apply draft_injective
    rw [values t made]
    funext f
    cases f <;> rfl
  · exact ⟨_, (settings_layered _ _).2 _ (base_amber _ (by decide))⟩

/-- A double dash attached to a flag for a number gives no number, but the flag is refused. -/
theorem blank_scale_is_refused :
    ∃ a, Arguments.read ["run", "game.ch8", "--scale=--"] = .ok ⟨false, .run a⟩ ∧
      a.base Disk.empty = .ok default ∧
      a.settings Disk.empty =
        .error (.change (.settings (.notInteger .scale (.list [])))) ∧
      ¬ ((∃ t, a.settings Disk.empty = .ok t) ↔
        ∀ i, a.scale = some (.number i) ∨ a.clockHz = some (.number i) → ¬ i < 1) := by
  refine ⟨⟨Path.ofString "game.ch8", none, some .blank, none, none, false⟩, rfl, rfl, rfl, ?_⟩
  intro claimed
  obtain ⟨t, made⟩ := claimed.2 (by simp)
  cases made

end RunArguments

end CommandLine

end Chip8
