import Chip8.Json

/-!
# How deep a text is nested

The reader goes on behind what it has read, so a text is refused as nested too deeply only if it
opens more lists and records than the reader goes deep. That many brackets in a row are enough,
whatever follows them. Nothing else breaks the reader off: no text takes more calls than it has.
-/

namespace Chip8.Json

variable {α β : Type} {depth : Nat} {cs cs' : List Char}

/-- A character that opens a list or a record, unless it stands in a string. -/
def isOpening (c : Char) : Bool := c == '[' || c == '\x7b'

/-- The number of opening characters of a text. -/
def opens (cs : List Char) : Nat := cs.countP isOpening

/-- What is read from a text is followed by an end of it, and the text is refused as nested too
deeply only if it opens more than the depth. -/
def Within (depth : Nat) (cs : List Char) : Except Error (α × List Char) → Prop
  | .ok (_, rest) => rest <:+ cs
  | .error e => e = .tooDeep → depth < opens cs

theorem opens_le_of_suffix (h : cs' <:+ cs) : opens cs' ≤ opens cs :=
  h.sublist.countP_le

theorem skip_suffix (cs : List Char) : skip cs <:+ cs :=
  List.dropWhile_suffix _

theorem suffix_of_skip_eq {c : Char} (h : skip cs = c :: cs') : cs' <:+ cs :=
  (List.suffix_cons c cs').trans (h ▸ skip_suffix cs)

theorem Within.of_suffix {r : Except Error (α × List Char)} (h : Within depth cs' r)
    (suffix : cs' <:+ cs) : Within depth cs r := by
  cases r with
  | ok result => exact List.IsSuffix.trans h suffix
  | error e => exact fun deep => Nat.lt_of_lt_of_le (h deep) (opens_le_of_suffix suffix)

/-- Reading goes on behind a mark and the blanks after it. -/
theorem Within.behind {c : Char} {r : Except Error (α × List Char)}
    (h : Within depth (skip cs') r) (mark : skip cs = c :: cs') : Within depth cs r :=
  (h.of_suffix (skip_suffix cs')).of_suffix (suffix_of_skip_eq mark)

theorem Within.bind {x : Except Error (α × List Char)}
    {f : α × List Char → Except Error (β × List Char)} (h : Within depth cs x)
    (next : ∀ a rest, Within depth rest (f (a, rest))) : Within depth cs (x >>= f) := by
  cases x with
  | ok result => exact (next result.1 result.2).of_suffix h
  | error e => exact h

theorem Within.opened {c : Char} {r : Except Error (α × List Char)} (h : Within depth cs r)
    (bracket : isOpening c = true) : Within (depth + 1) (c :: cs) r := by
  cases r with
  | ok result => exact List.IsSuffix.trans h (List.suffix_cons c cs)
  | error e =>
      intro deep
      have inside := h deep
      rw [opens, List.countP_cons_of_pos bracket]
      exact Nat.succ_lt_succ inside

theorem stringBody_within (seen : PointText) (cs : List Char) :
    Within depth cs (stringBody seen cs) := by
  fun_induction stringBody seen cs with
  | case1 => rintro ⟨⟩
  | case2 seen rest => exact List.suffix_cons _ rest
  | case3 seen a b c d rest p unit ih =>
      exact ih.of_suffix (List.suffix_append ['\\', 'u', a, b, c, d] rest)
  | case4 => rintro ⟨⟩
  | case5 seen c rest ordinary e escaped ih =>
      exact ih.of_suffix (List.suffix_append ['\\', c] rest)
  | case6 => rintro ⟨⟩
  | case7 => rintro ⟨⟩
  | case8 seen c rest quote escape ordinary plain ih =>
      exact ih.of_suffix (List.suffix_cons c rest)

theorem string_within (cs : List Char) : Within depth cs (string cs) :=
  (stringBody_within [] cs).bind fun _ rest => List.suffix_refl rest

theorem fraction?_suffix {ds rest : List Char} (h : fraction? cs = some (ds, rest)) :
    rest <:+ cs := by
  unfold fraction? at h
  split at h
  · split at h
    · cases h
    · cases h
      exact (List.dropWhile_suffix _).trans (List.suffix_cons _ _)
  · cases h

theorem exponent?_suffix {e : Int} {rest : List Char} (h : exponent? cs = some (e, rest)) :
    rest <:+ cs := by
  unfold exponent? at h
  split at h
  next mark behind =>
    -- The digits begin behind the mark and perhaps a sign.
    have inside (negative : Bool) (body : List Char) (suffix : body <:+ mark :: behind)
        (read : (if (digits body).1.isEmpty then none
          else some (if negative then -(digitsValue (digits body).1 : Int)
            else digitsValue (digits body).1, (digits body).2)) = some (e, rest)) :
        rest <:+ mark :: behind := by
      split at read
      · cases read
      · cases read
        exact (List.dropWhile_suffix _).trans suffix
    split at h
    · simp only at h
      split at h
      next more => exact inside true more (List.suffix_append [mark, '-'] more) h
      next more => exact inside false more (List.suffix_append [mark, '+'] more) h
      next => exact inside false behind (List.suffix_cons mark behind) h
    · cases h
  · cases h

theorem getD_suffix {x : Option (α × List Char)} {a : α}
    (h : ∀ b rest, x = some (b, rest) → rest <:+ cs) : (x.getD (a, cs)).2 <:+ cs := by
  cases x with
  | none => exact List.suffix_refl cs
  | some result => exact h _ _ rfl

theorem afterNumber_suffix (cs : List Char) :
    ((exponent? ((fraction? cs).getD ([], cs)).2).getD
      (0, ((fraction? cs).getD ([], cs)).2)).2 <:+ cs :=
  (getD_suffix fun _ _ => exponent?_suffix).trans (getD_suffix fun _ _ => fraction?_suffix)

theorem Within.ite {p : Prop} [Decidable p] {r r' : Except Error (α × List Char)}
    (h : Within depth cs r) (h' : Within depth cs r') : Within depth cs (if p then r else r') := by
  split
  · exact h
  · exact h'

theorem number_within (negative : Bool) (cs : List Char) :
    Within depth cs (number negative cs) := by
  have refused (e : Error) (h : e ≠ .tooDeep) (cs : List Char) :
      Within depth cs (.error e : Except Error (Data × List Char)) := fun deep => absurd deep h
  unfold number
  simp only
  split
  next rest =>
    refine (refused _ (by simp) _).ite (.ite (.ite (refused _ (by simp) _) ?_) ?_)
    · exact List.suffix_cons _ rest
    · exact (afterNumber_suffix rest).trans (List.suffix_cons _ rest)
  next =>
    refine (refused _ (by simp) _).ite (.ite (.ite (refused _ (by simp) _) ?_) ?_)
    · exact List.dropWhile_suffix _
    · exact (afterNumber_suffix _).trans (List.dropWhile_suffix _)

theorem scalar_within (cs : List Char) : Within depth cs (scalar cs) := by
  unfold scalar
  split
  · exact List.drop_suffix _ _
  · split
    · exact (number_within _ _).of_suffix (List.suffix_cons _ _)
    · exact number_within _ _

/-- The three parts of the reader, which call each other, go on behind what they have read. -/
structure ReadsWithin (fuel : Nat) : Prop where
  value (depth : Nat) (cs : List Char) : Within depth cs (value fuel depth cs)
  items (depth : Nat) (seen : List Data) (cs : List Char) :
    Within depth cs (items fuel depth seen cs)
  fields (depth : Nat) (seen : List (PointText × Data)) (cs : List Char) :
    Within depth cs (fields fuel depth seen cs)

namespace ReadsWithin
variable {fuel : Nat}

theorem value_succ (h : ReadsWithin fuel) (depth : Nat) (cs : List Char) :
    Within depth cs (Json.value (fuel + 1) depth cs) := by
  unfold Json.value
  split
  next rest =>
    refine ((string_within rest).bind fun t behind => ?_).of_suffix (List.suffix_cons _ rest)
    exact List.suffix_refl behind
  next rest =>
    split
    · intro _
      simp [opens, isOpening]
    · split
      next empty => exact (suffix_of_skip_eq empty).trans (List.suffix_cons _ rest)
      next => exact ((h.items _ _ _).of_suffix (skip_suffix rest)).opened rfl
  next rest =>
    split
    · intro _
      simp [opens, isOpening]
    · split
      next empty => exact (suffix_of_skip_eq empty).trans (List.suffix_cons _ rest)
      next => exact ((h.fields _ _ _).of_suffix (skip_suffix rest)).opened rfl
  next => exact scalar_within cs

theorem items_succ (h : ReadsWithin fuel) (depth : Nat) (seen : List Data) (cs : List Char) :
    Within depth cs (Json.items (fuel + 1) depth seen cs) := by
  unfold Json.items
  refine (h.value depth cs).bind fun item behind => ?_
  simp only
  split
  next closed => exact suffix_of_skip_eq closed
  next more => exact (h.items _ _ _).behind more
  next => rintro ⟨⟩

theorem fields_succ (h : ReadsWithin fuel) (depth : Nat) (seen : List (PointText × Data))
    (cs : List Char) : Within depth cs (Json.fields (fuel + 1) depth seen cs) := by
  unfold Json.fields
  split
  next rest =>
    refine ((string_within rest).bind fun name behind => ?_).of_suffix (List.suffix_cons _ rest)
    simp only
    split
    next colon =>
      refine ((h.value depth _).behind colon).bind fun item behind => ?_
      simp only
      split
      next closed => exact suffix_of_skip_eq closed
      next more => exact (h.fields _ _ _).behind more
      next => rintro ⟨⟩
    next => rintro ⟨⟩
  next => rintro ⟨⟩

end ReadsWithin

theorem readsWithin (fuel : Nat) : ReadsWithin fuel := by
  induction fuel with
  | zero => constructor <;> intros <;> rintro ⟨⟩
  | succ fuel ih => exact ⟨ih.value_succ, ih.items_succ, ih.fields_succ⟩

/-- One more call makes no difference to the three parts of the reader if they may make two for
every character of a text. -/
structure Settled (fuel : Nat) : Prop where
  value (depth : Nat) (cs : List Char) (enough : 2 * cs.length < fuel) :
    value (fuel + 1) depth cs = value fuel depth cs
  items (depth : Nat) (seen : List Data) (cs : List Char) (enough : 2 * cs.length + 1 < fuel) :
    items (fuel + 1) depth seen cs = items fuel depth seen cs
  fields (depth : Nat) (seen : List (PointText × Data)) (cs : List Char)
    (enough : 2 * cs.length + 1 < fuel) :
    fields (fuel + 1) depth seen cs = fields fuel depth seen cs

theorem length_le_of_string {t : PointText} {rest : List Char} (read : string cs = .ok (t, rest)) :
    rest.length ≤ cs.length := by
  have within : Within 0 cs (string cs) := string_within cs
  rw [read] at within
  exact List.IsSuffix.length_le within

theorem length_le_of_value {fuel depth : Nat} {item : Data} {rest : List Char}
    (read : value fuel depth cs = .ok (item, rest)) : rest.length ≤ cs.length := by
  have within := (readsWithin fuel).value depth cs
  rw [read] at within
  exact List.IsSuffix.length_le within

theorem length_skip_le (cs : List Char) : (skip cs).length ≤ cs.length :=
  (skip_suffix cs).length_le

/-- What stands behind a mark is shorter, and so is what stands behind the blanks after it. -/
theorem length_skip_lt {c : Char} (mark : skip cs = c :: cs') : (skip cs').length < cs.length := by
  have behind := length_skip_le cs'
  have shorter := length_skip_le cs
  rw [mark, List.length_cons] at shorter
  omega

namespace Settled
variable {fuel : Nat}

theorem value_succ (h : Settled fuel) (depth : Nat) (cs : List Char)
    (enough : 2 * cs.length < fuel + 1) :
    Json.value (fuel + 2) depth cs = Json.value (fuel + 1) depth cs := by
  unfold Json.value
  split
  next => rfl
  next rest =>
    have shorter := length_skip_le rest
    rw [List.length_cons] at enough
    cases depth with
    | zero => rfl
    | succ depth =>
        simp only
        split
        next => rfl
        next => exact h.items _ _ _ (by omega)
  next rest =>
    have shorter := length_skip_le rest
    rw [List.length_cons] at enough
    cases depth with
    | zero => rfl
    | succ depth =>
        simp only
        split
        next => rfl
        next => exact h.fields _ _ _ (by omega)
  next => rfl

theorem items_succ (h : Settled fuel) (depth : Nat) (seen : List Data) (cs : List Char)
    (enough : 2 * cs.length + 1 < fuel + 1) :
    Json.items (fuel + 2) depth seen cs = Json.items (fuel + 1) depth seen cs := by
  unfold Json.items
  -- The first item begins where the items do, so they need a call more than it does.
  rw [h.value depth cs (by omega)]
  cases read : Json.value fuel depth cs with
  | error e => rfl
  | ok result =>
      have shorter := length_le_of_value read
      simp only [bind, Except.bind]
      split
      next => rfl
      next more =>
        have := length_skip_lt more
        exact h.items _ _ _ (by omega)
      next => rfl

theorem fields_succ (h : Settled fuel) (depth : Nat) (seen : List (PointText × Data))
    (cs : List Char) (enough : 2 * cs.length + 1 < fuel + 1) :
    Json.fields (fuel + 2) depth seen cs = Json.fields (fuel + 1) depth seen cs := by
  unfold Json.fields
  split
  next rest =>
    rw [List.length_cons] at enough
    cases spelled : string rest with
    | error e => rfl
    | ok result =>
        have inside := length_le_of_string spelled
        simp only [bind, Except.bind]
        split
        next text colon =>
          have small := length_skip_lt colon
          rw [h.value depth _ (by omega)]
          cases read : Json.value fuel depth (skip text) with
          | error e => rfl
          | ok result =>
              have shorter := length_le_of_value read
              simp only
              split
              next => rfl
              next more =>
                have := length_skip_lt more
                exact h.fields _ _ _ (by omega)
              next => rfl
        next => rfl
  next => rfl

end Settled

theorem settled (fuel : Nat) : Settled fuel := by
  induction fuel with
  | zero => constructor <;> intros <;> omega
  | succ fuel ih => exact ⟨ih.value_succ, ih.items_succ, ih.fields_succ⟩

theorem value_eq_of_enough (depth : Nat) {cs : List Char} {fuel fuel' : Nat}
    (enough : 2 * cs.length < fuel) (more : fuel ≤ fuel') :
    value fuel' depth cs = value fuel depth cs := by
  induction more with
  | refl => rfl
  | step more ih =>
      rw [(settled _).value depth cs (Nat.lt_of_lt_of_le enough more), ih]

/-- No text runs out of calls: with more of them it is read just the same. -/
theorem read_eq_of_enough {s : String} {fuel : Nat} (enough : 2 * (skip s.toList).length < fuel) :
    read s = (do
      let (data, rest) ← value fuel deepest (skip s.toList)
      if (skip rest).isEmpty then pure data else throw .malformed) := by
  have same : value fuel deepest (skip s.toList) =
      value (2 * (skip s.toList).length + 2) deepest (skip s.toList) := by
    rcases Nat.le_total fuel (2 * (skip s.toList).length + 2) with more | more
    · exact (value_eq_of_enough deepest enough more).symm
    · exact value_eq_of_enough deepest (by omega) more
  rw [same]
  rfl

end Chip8.Json
