import Chip8.Settings.Check
import Mathlib.Algebra.Order.Ring.Int
import Mathlib.Data.List.Basic

/-!
# Acceptable settings

Ten values are acceptable as settings if each has the kind of its field and lies in its range. The
check takes over exactly the acceptable values, unchanged, and settings that keep their ranges have
a bounded number of ticks in a frame.
-/

namespace Chip8

/-- A number lies between zero and one. No value that is not a number does. -/
def Number.InUnit : Number → Prop
  | .int i => 0 ≤ i ∧ i ≤ 1
  | .float x => 0.0 ≤ x ∧ x ≤ 1.0

theorem Number.isShare_iff (n : Number) : n.isShare = true ↔ n.InUnit := by
  cases n <;> simp [isShare, InUnit]

theorem Number.data_injective {a b : Number} (h : a.data = b.data) : a = b := by
  cases a <;> cases b <;> simp_all [data]

example : ¬ (Number.float (0.0 / 0.0)).InUnit := by
  rw [← Number.isShare_iff]
  decide

/-- Three whole numbers, each of them a channel. -/
def Data.IsColor (d : Data) : Prop :=
  ∃ r g b : Int, d = .list [.int r, .int g, .int b] ∧ ∀ c ∈ [r, g, b], 0 ≤ c ∧ c ≤ 255

namespace Field

/-- The fields that hold whole numbers. -/
def whole : List Field := [scale, clockHz, frameRate, blurRadius, toneHz]

/-- The fields that hold positive numbers. -/
def positive : List Field := [scale, clockHz, frameRate, toneHz]

/-- A value has the kind of a field and lies in its range. -/
def Accepts : Field → Data → Prop
  | scale, v | clockHz, v | frameRate, v | toneHz, v => ∃ i, v = .int i ∧ 1 ≤ i
  | blurRadius, v => ∃ i, v = .int i
  | bloomStrength, v => ∃ n : Number, v = n.data
  | volume, v => ∃ n : Number, v = n.data ∧ n.InUnit
  | glow, v => ∃ b, v = .bool b
  | fgColor, v | bgColor, v => v.IsColor

end Field

namespace Settings

/-- Every value has the kind of its field and lies in its range. -/
structure Acceptable (d : Draft) : Prop where
  whole : ∀ f ∈ Field.whole, ∃ i, d f = .int i
  number : ∀ f ∈ [Field.bloomStrength, Field.volume], ∃ n : Number, d f = n.data
  switch : ∃ b, d .glow = .bool b
  color : ∀ f ∈ [Field.fgColor, Field.bgColor], (d f).IsColor
  positive : ∀ f ∈ Field.positive, ∀ i, d f = .int i → 1 ≤ i
  volume : ∀ n : Number, d .volume = n.data → n.InUnit

/-- Whether values are acceptable can be told field by field. -/
theorem acceptable_iff (d : Draft) : Acceptable d ↔ ∀ f : Field, f.Accepts (d f) := by
  constructor
  · intro h f
    have positive (mem : f ∈ Field.positive) (whole : f ∈ Field.whole) :
        ∃ i, d f = .int i ∧ 1 ≤ i := by
      obtain ⟨i, value⟩ := h.whole f whole
      exact ⟨i, value, h.positive f mem i value⟩
    cases f with
    | scale | clockHz | frameRate | toneHz => exact positive (by decide) (by decide)
    | blurRadius => exact h.whole _ (by decide)
    | bloomStrength => exact h.number _ (by decide)
    | volume =>
        obtain ⟨n, value⟩ := h.number .volume (by decide)
        exact ⟨n, value, h.volume n value⟩
    | glow => exact h.switch
    | fgColor | bgColor => exact h.color _ (by decide)
  · intro h
    constructor
    case whole =>
      intro f mem
      have accepts := h f
      cases f with
      | scale | clockHz | frameRate | toneHz => exact accepts.imp fun _ => And.left
      | blurRadius => exact accepts
      | _ => simp [Field.whole] at mem
    case number =>
      intro f mem
      have accepts := h f
      cases f with
      | bloomStrength => exact accepts
      | volume => exact accepts.imp fun _ => And.left
      | _ => simp at mem
    case switch => exact h .glow
    case color =>
      intro f mem
      rcases List.mem_pair.1 mem with rfl | rfl
      · exact h .fgColor
      · exact h .bgColor
    case positive =>
      intro f mem i value
      have accepts := h f
      cases f with
      | scale | clockHz | frameRate | toneHz =>
          obtain ⟨j, same, bound⟩ := accepts
          cases same.symm.trans value
          exact bound
      | _ => simp [Field.positive] at mem
    case volume =>
      intro n value
      obtain ⟨m, same, unit⟩ := h .volume
      exact Number.data_injective (same.symm.trans value) ▸ unit

/-- The ranges that checked settings keep. -/
structure InRange (s : Settings) : Prop where
  scale : 1 ≤ s.scale
  clockHz : 1 ≤ s.clockHz
  frameRate : 1 ≤ s.frameRate
  toneHz : 1 ≤ s.toneHz
  volume : s.volume.InUnit

theorem bind_eq_ok_iff {x : Except ε α} {f : α → Except ε β} {b : β} :
    x >>= f = .ok b ↔ ∃ a, x = .ok a ∧ f a = .ok b := by
  cases x <;> simp [bind, Except.bind]

theorem inRange_eq_ok_iff (s t : Settings) : inRange s = .ok t ↔ s.InRange ∧ t = s := by
  rw [inRange]
  constructor
  · intro checked
    split at checked
    · cases checked
    · split at checked
      · cases checked
      · split at checked
        · cases checked
        · cases checked
          next scale others volume =>
            refine ⟨⟨by omega, by omega, by omega, by omega, ?_⟩, rfl⟩
            exact (Number.isShare_iff _).1 (by simpa using volume)
  · rintro ⟨h, rfl⟩
    have scale := h.scale
    have clock := h.clockHz
    have rate := h.frameRate
    have tone := h.toneHz
    rw [if_neg (by omega), if_neg (by omega), if_neg (by simp [(Number.isShare_iff _).2 h.volume])]

/-- A frame has at least one tick, and the ticks of a second are no more than the clock asks for,
unless the frames alone are more. -/
theorem InRange.ticks {s : Settings} (h : s.InRange) :
    1 ≤ s.ticksPerFrame ∧ s.frameRate * s.ticksPerFrame ≤ max s.clockHz s.frameRate := by
  have rate := h.frameRate
  refine ⟨le_max_left _ _, ?_⟩
  rw [ticksPerFrame, mul_max_of_nonneg _ _ (by omega : 0 ≤ s.frameRate), mul_one]
  exact max_le (le_max_right _ _) ((Int.mul_ediv_self_le (by omega)).trans (le_max_left _ _))

section Draft
variable {d : Draft} {f : Field}

theorem integer_eq_ok_iff (i : Int) : integer d f = .ok i ↔ d f = .int i := by
  rw [integer]
  split <;> simp_all

theorem number_eq_ok_iff (n : Number) : number d f = .ok n ↔ d f = n.data := by
  rw [number]
  cases n <;> split <;> simp_all [Number.data]

theorem switch_eq_ok_iff (b : Bool) : switch d f = .ok b ↔ d f = .bool b := by
  rw [switch]
  cases b <;> split <;> simp_all

theorem toNat_channel {i : Int} (h : 0 ≤ i ∧ i ≤ 255) :
    ((UInt8.ofNat i.toNat).toNat : Int) = i := by
  rw [UInt8.toNat_ofNat']
  omega

theorem isColor_iff (v : Data) : v.IsColor ↔ ∃ c, v = colorData c := by
  constructor
  · rintro ⟨r, g, b, rfl, channels⟩
    refine ⟨⟨UInt8.ofNat r.toNat, UInt8.ofNat g.toNat, UInt8.ofNat b.toNat⟩, ?_⟩
    rw [colorData, toNat_channel (channels r (by simp)), toNat_channel (channels g (by simp)),
      toNat_channel (channels b (by simp))]
  · rintro ⟨c, rfl⟩
    have := c.red.toNat_lt
    have := c.green.toNat_lt
    have := c.blue.toNat_lt
    refine ⟨_, _, _, rfl, ?_⟩
    simp only [List.mem_cons, List.not_mem_nil, or_false, forall_eq_or_imp, forall_eq]
    omega

theorem color?_eq_some_iff (v : Data) (c : Color) : color? v = some c ↔ v = colorData c := by
  constructor
  · intro found
    unfold color? at found
    split at found
    next r g b =>
      split at found
      next channels =>
        cases found
        rw [colorData, toNat_channel ⟨channels.1, channels.2.1⟩,
          toNat_channel ⟨channels.2.2.1, channels.2.2.2.1⟩, toNat_channel channels.2.2.2.2]
      next => cases found
    next => cases found
  · rintro rfl
    exact color?_colorData c

theorem color_eq_ok_iff (c : Color) : color d f = .ok c ↔ d f = colorData c := by
  rw [← color?_eq_some_iff, color]
  cases color? (d f) <;> simp

/-- Settings read from a draft hold its values. -/
theorem draft_of_ofDraft {s : Settings} (h : ofDraft d = .ok s) : s.draft = d := by
  simp only [ofDraft, bind_eq_ok_iff, integer_eq_ok_iff, number_eq_ok_iff, switch_eq_ok_iff,
    color_eq_ok_iff] at h
  obtain ⟨scale, hscale, clock, hclock, rate, hrate, radius, hradius, tone, htone, bloom, hbloom,
    volume, hvolume, glow, hglow, fg, hfg, bg, hbg, made⟩ := h
  cases made
  funext f
  cases f <;> simp only [draft, *]

end Draft

/-- The draft of settings is acceptable exactly if the settings keep their ranges. -/
theorem acceptable_draft_iff (s : Settings) : Acceptable s.draft ↔ s.InRange := by
  constructor
  · intro h
    exact ⟨h.positive .scale (by decide) _ rfl, h.positive .clockHz (by decide) _ rfl,
      h.positive .frameRate (by decide) _ rfl, h.positive .toneHz (by decide) _ rfl,
      h.volume _ rfl⟩
  · intro h
    rw [acceptable_iff]
    intro f
    cases f with
    | scale => exact ⟨_, rfl, h.scale⟩
    | clockHz => exact ⟨_, rfl, h.clockHz⟩
    | frameRate => exact ⟨_, rfl, h.frameRate⟩
    | toneHz => exact ⟨_, rfl, h.toneHz⟩
    | volume => exact ⟨_, rfl, h.volume⟩
    | blurRadius | bloomStrength | glow => exact ⟨_, rfl⟩
    | fgColor | bgColor => exact (isColor_iff _).2 ⟨_, rfl⟩

/-- Acceptable values are those of some settings. -/
theorem Acceptable.exists_draft {d : Draft} (h : Acceptable d) : ∃ s : Settings, s.draft = d := by
  obtain ⟨scale, hscale⟩ := h.whole .scale (by decide)
  obtain ⟨clock, hclock⟩ := h.whole .clockHz (by decide)
  obtain ⟨rate, hrate⟩ := h.whole .frameRate (by decide)
  obtain ⟨radius, hradius⟩ := h.whole .blurRadius (by decide)
  obtain ⟨tone, htone⟩ := h.whole .toneHz (by decide)
  obtain ⟨bloom, hbloom⟩ := h.number .bloomStrength (by decide)
  obtain ⟨volume, hvolume⟩ := h.number .volume (by decide)
  obtain ⟨glow, hglow⟩ := h.switch
  obtain ⟨fg, hfg⟩ := (isColor_iff _).1 (h.color .fgColor (by decide))
  obtain ⟨bg, hbg⟩ := (isColor_iff _).1 (h.color .bgColor (by decide))
  refine ⟨⟨scale, clock, rate, fg, bg, glow, bloom, radius, tone, volume⟩, funext fun f => ?_⟩
  cases f <;> simp only [draft, *]

/-- The check takes over exactly the acceptable values. -/
theorem check_eq_ok_iff (d : Draft) (s : Settings) :
    check d = .ok s ↔ Acceptable d ∧ s.draft = d := by
  rw [check, bind_eq_ok_iff]
  constructor
  · rintro ⟨t, read, ranged⟩
    obtain ⟨range, rfl⟩ := (inRange_eq_ok_iff t s).1 ranged
    have same := draft_of_ofDraft read
    exact ⟨same ▸ (acceptable_draft_iff s).2 range, same⟩
  · rintro ⟨h, rfl⟩
    exact ⟨s, ofDraft_draft s, (inRange_eq_ok_iff s s).2 ⟨(acceptable_draft_iff s).1 h, rfl⟩⟩

/-- A route to settings leads from exactly the acceptable values to settings, these hold the
values, and other values are refused with an error of the check. -/
structure Judges (refusal : Error → ε) (d : Draft) (r : Except ε Settings) : Prop where
  accepts : (∃ s, r = .ok s) ↔ Acceptable d
  values : ∀ s, r = .ok s → s.draft = d
  refuses : ¬ Acceptable d → ∃ e, r = .error (refusal e)

theorem judges_check (refusal : Error → ε) (d : Draft) :
    Judges refusal d ((check d).mapError refusal) := by
  cases checked : check d with
  | ok s =>
      obtain ⟨acceptable, same⟩ := (check_eq_ok_iff d s).1 checked
      refine ⟨⟨fun _ => acceptable, fun _ => ⟨s, rfl⟩⟩, ?_, fun no => absurd acceptable no⟩
      rintro t ⟨⟩
      exact same
  | error e =>
      refine ⟨⟨?_, ?_⟩, ?_, fun _ => ⟨e, rfl⟩⟩
      · rintro ⟨s, ⟨⟩⟩
      · intro acceptable
        obtain ⟨s, same⟩ := acceptable.exists_draft
        cases checked.symm.trans ((check_eq_ok_iff d s).2 ⟨acceptable, same⟩)
      · rintro s ⟨⟩

end Settings

end Chip8
