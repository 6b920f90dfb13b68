import Mathlib.Logic.Function.Iterate
import Barrage.Proofs.World.Confinement

/-!
# A move within limits is a clamp

Along an axis, a displacement is stopped by one border only: the one ahead, if it is closed. Where
it leads is `stoppedAt`, the place it would reach or the last one before that border, whichever
comes first. A border behind plays no part, so a body that is outside of it comes no nearer than its
displacement takes it.

A check finds out how far the displacement may go (`checkAxis_stoppedAt`): all the way, or up to a
place that is flush with the border ahead and different from the place it would reach. From this
follows `ClampLaw`: where a body gets in both modes, when its displacement fits, that a body within
the limits stays there, and that a body that was blocked stays flush with the border however often
it is moved again.
-/

namespace Barrage

variable {K : Type} [Field K] [LinearOrder K]

/-- Where a displacement of an extent leads: it is stopped by the border ahead, if that is
closed. -/
def stoppedAt (lo hi : Option K) (position half delta : K) : K :=
  if 0 < delta then
    match hi with
    | some border => min (position + delta) (border - half)
    | none => position + delta
  else if delta < 0 then
    match lo with
    | some border => max (position + delta) (border + half)
    | none => position + delta
  else position + delta

section
variable {lo hi : Option K} {position half delta border : K}

/-- A displacement towards the low border ends at that border at the latest. -/
theorem stoppedAt_low (h : delta < 0) :
    stoppedAt (some border) hi position half delta = max (position + delta) (border + half) := by
  unfold stoppedAt
  rw [if_neg h.le.not_gt, if_pos h]

/-- A displacement towards the high border ends at that border at the latest. -/
theorem stoppedAt_high (h : 0 < delta) :
    stoppedAt lo (some border) position half delta = min (position + delta) (border - half) := by
  unfold stoppedAt
  rw [if_pos h]

end

/-- Where a displacement of a body leads along an axis. -/
def Limits.stops (l : Limits K) (b : Body K) (delta : Vec K) (a : Axis) : K :=
  stoppedAt (l.low a) (l.high a) (b.position.along a) (b.half.along a) (delta.along a)

/-- An extent touches the border that a displacement moves toward. -/
inductive Flush (lo hi : Option K) (position half delta : K) : Prop where
  | low {border : K} (hdelta : delta < 0) (hborder : lo = some border)
      (hflush : position - half = border)
  | high {border : K} (hdelta : 0 < delta) (hborder : hi = some border)
      (hflush : position + half = border)

variable [IsStrictOrderedRing K] [Elementary K]

/-! ## One axis -/

section
variable {lo hi : Option K} {position half delta room : K}

/-- A displacement is not blocked, and leads all the way, or it is, and leads up to a place that is
flush with the border ahead. -/
theorem checkAxis_stoppedAt (lo hi : Option K) (position half delta : K) :
    ((checkAxis position half delta lo hi).possible = true ∧
      stoppedAt lo hi position half delta = position + delta) ∨
    ∃ room, checkAxis position half delta lo hi = ⟨false, some room⟩ ∧
      stoppedAt lo hi position half delta = position + room ∧ room ≠ delta ∧
      Flush lo hi (position + room) half delta := by
  rcases lt_trichotomy delta 0 with hneg | rfl | hpos
  · unfold checkAxis stoppedAt
    rw [if_pos hneg, if_neg hneg.le.not_gt, if_pos hneg]
    cases lo with
    | none => exact .inl ⟨rfl, rfl⟩
    | some border =>
      dsimp only
      by_cases hroom : -(position - half - border) ≤ delta
      · exact .inl ⟨decide_eq_true hroom, max_eq_left (by linarith)⟩
      · refine .inr ⟨-(position - half - border), by rw [decide_eq_false hroom], ?_,
          fun h => hroom h.le, .low hneg rfl (by ring)⟩
        rw [max_eq_right (by linarith)]
        ring
  · unfold checkAxis stoppedAt
    rw [if_neg (lt_irrefl _), if_neg (lt_irrefl _), if_neg (lt_irrefl _), if_neg (lt_irrefl _)]
    exact .inl ⟨rfl, rfl⟩
  · unfold checkAxis stoppedAt
    rw [if_neg hpos.le.not_gt, if_pos hpos, if_pos hpos]
    cases hi with
    | none => exact .inl ⟨rfl, rfl⟩
    | some border =>
      dsimp only
      by_cases hroom : delta ≤ border - (position + half)
      · exact .inl ⟨decide_eq_true hroom, min_eq_left (by linarith)⟩
      · refine .inr ⟨border - (position + half), by rw [decide_eq_false hroom], ?_,
          fun h => hroom h.ge, .high hpos rfl (by ring)⟩
        rw [min_eq_right (by linarith)]
        ring

/-- A displacement fits when it leads all the way. -/
theorem possible_checkAxis_iff : (checkAxis position half delta lo hi).possible = true ↔
    stoppedAt lo hi position half delta = position + delta := by
  rcases checkAxis_stoppedAt lo hi position half delta with
    ⟨hfits, hall⟩ | ⟨room, hcheck, hstop, hne, -⟩
  · exact iff_of_true hfits hall
  · rw [hcheck, hstop]
    exact iff_of_false Bool.false_ne_true fun h => hne (add_left_cancel h)

/-- In either mode, a displacement that does not fit is carried out up to the border ahead. -/
theorem shift_checkAxis (lo hi : Option K) (position half delta : K) (mode : MoveMode) :
    position + (checkAxis position half delta lo hi).shift delta mode =
      if (checkAxis position half delta lo hi).possible = true ∧ mode = .velocity then position
      else stoppedAt lo hi position half delta := by
  rcases checkAxis_stoppedAt lo hi position half delta with
    ⟨hfits, hall⟩ | ⟨room, hcheck, hstop, -, -⟩
  · rw [AxisCheck.shift_of_possible hfits, hall]
    cases mode <;> simp [hfits]
  · rw [hcheck, hstop, if_neg fun h => Bool.false_ne_true h.1]
    rfl

/-- From within the borders, every move leads to a place within them. -/
theorem Within.shift (h : Within lo hi position half) (delta : K) (mode : MoveMode) :
    Within lo hi (position + (checkAxis position half delta lo hi).shift delta mode) half := by
  rw [shift_checkAxis]
  split
  · exact h
  · have hteleport : Within lo hi
        (position + (checkAxis position half delta lo hi).shift delta .teleport) half := h.teleport
    rwa [shift_checkAxis, if_neg fun h => nomatch h.2] at hteleport

/-- A displacement that does not fit leads to a place that is flush with the border ahead. -/
theorem flush_shift (h : (checkAxis position half delta lo hi).possible = false)
    (mode : MoveMode) :
    Flush lo hi (position + (checkAxis position half delta lo hi).shift delta mode) half delta := by
  rcases checkAxis_stoppedAt lo hi position half delta with
    ⟨hfits, -⟩ | ⟨room, hcheck, -, -, hflush⟩
  · exact absurd (hfits.symm.trans h) Bool.true_eq_false.mp
  · rw [hcheck]
    exact hflush

/-- From there it fits as little as before. -/
theorem Flush.not_possible (h : Flush lo hi position half delta) :
    (checkAxis position half delta lo hi).possible = false := by
  rw [← Bool.not_eq_true, possible_checkAxis_iff]
  intro hall
  cases h with
  | low hdelta hborder hflush =>
    rw [hborder, stoppedAt_low hdelta, ← hflush] at hall
    linarith [le_max_right (position + delta) (position - half + half)]
  | high hdelta hborder hflush =>
    rw [hborder, stoppedAt_high hdelta, ← hflush] at hall
    linarith [min_le_right (position + delta) (position + half - half)]

end

/-! ## Bodies -/

/-- The body after it was moved `n` times by the same displacement. -/
def Body.movedWithin (b : Body K) (l : Limits K) (delta : Vec K) (mode : MoveMode) (n : Nat) :
    Body K :=
  (fun b => (b.moveWithin l delta mode).2)^[n] b

/-- A body touches the border ahead along an axis. -/
def Body.FlushAlong (b : Body K) (l : Limits K) (delta : Vec K) (a : Axis) : Prop :=
  Flush (l.low a) (l.high a) (b.position.along a) (b.half.along a) (delta.along a)

section
variable {b : Body K} {l : Limits K} {delta : Vec K} {mode : MoveMode} {a : Axis}

/-- A body that does not fit along an axis is flush with the border ahead when it was moved. -/
theorem Body.flushAlong_moveWithin (h : (b.moveWithin l delta mode).1.along a = false) :
    (b.moveWithin l delta mode).2.FlushAlong l delta a := by
  rw [fits_moveWithin] at h
  rw [FlushAlong, along_moveWithin]
  exact flush_shift h mode

/-- A body that is flush with the border ahead does not fit along that axis again. -/
theorem Body.FlushAlong.blocked (h : b.FlushAlong l delta a) (mode : MoveMode) :
    (b.moveWithin l delta mode).1.along a = false := by
  rw [fits_moveWithin]
  exact h.not_possible

/-- A body that was stopped at an edge stays flush with it, however often the move is repeated. -/
theorem Body.flushAlong_movedWithin (h : (b.moveWithin l delta mode).1.along a = false) (n : Nat) :
    (b.movedWithin l delta mode (n + 1)).FlushAlong l delta a := by
  induction n with
  | zero => exact flushAlong_moveWithin h
  | succ n ih =>
    rw [movedWithin, Function.iterate_succ_apply']
    exact flushAlong_moveWithin (ih.blocked mode)

end

/-- What becomes of a body that is moved within limits, along each axis on its own. -/
structure ClampLaw (l : Limits K) (b : Body K) (delta : Vec K) : Prop where
  /-- Nothing but its position changes. -/
  rest : ∀ mode, ∃ position, (b.moveWithin l delta mode).2 = { b with position }
  /-- Moved at once, it comes to where the border ahead stops it. -/
  teleport : ∀ a, (b.moveWithin l delta .teleport).2.position.along a = l.stops b delta a
  /-- Its displacement fits when that is where the displacement leads. -/
  fits : ∀ mode a, (b.moveWithin l delta mode).1.along a = true ↔
    (b.moveWithin l delta .teleport).2.position.along a = b.position.along a + delta.along a
  /-- Moved by its velocity later, it stays where it is, unless the displacement does not fit. -/
  velocity : ∀ a, (b.moveWithin l delta .velocity).2.position.along a =
    if (b.moveWithin l delta .velocity).1.along a then b.position.along a
    else (b.moveWithin l delta .teleport).2.position.along a
  /-- Within the limits, it stays there. -/
  inside : l.Encloses b.rect → ∀ mode, l.Encloses (b.moveWithin l delta mode).2.rect
  /-- Along an axis on which it was blocked, it is flush with the border ahead and blocked again,
  however often the move is repeated. -/
  flush : ∀ mode a, (b.moveWithin l delta mode).1.along a = false → ∀ n,
    (b.movedWithin l delta mode (n + 1)).FlushAlong l delta a ∧
    ((b.movedWithin l delta mode (n + 1)).moveWithin l delta mode).1.along a = false

/-- A move within limits is a clamp by the border ahead, wherever the body is. -/
theorem clampLaw_moveWithin (l : Limits K) (b : Body K) (delta : Vec K) : ClampLaw l b delta := by
  have hteleport : ∀ a, (b.moveWithin l delta .teleport).2.position.along a =
      l.stops b delta a := by
    intro a
    rw [b.along_moveWithin, Limits.check, shift_checkAxis, if_neg fun h => nomatch h.2]
    rfl
  refine ⟨fun mode => ⟨_, rfl⟩, hteleport, fun mode a => ?_, fun a => ?_, fun h mode => ?_,
    fun mode a h n => ?_⟩
  · rw [b.fits_moveWithin, hteleport]
    exact possible_checkAxis_iff
  · rw [hteleport, b.along_moveWithin, b.fits_moveWithin, Limits.check, shift_checkAxis]
    simp only [and_true, Limits.stops]
  · rw [Limits.encloses_rect_iff] at h ⊢
    intro a
    rw [b.along_moveWithin]
    exact (h a).shift _ mode
  · have hflush := Body.flushAlong_movedWithin h n
    exact ⟨hflush, hflush.blocked mode⟩

/-- A box that is off to the left, with its lower edge open, is sent to the right and down, and then
back to the left. -/
theorem clampLaw_stray :
    let l : Limits ℚ := ⟨some 0, some 100, some 0, none⟩
    let b : Body ℚ := ⟨"stray", ⟨-40, 30⟩, ⟨10, 5⟩, .zero, .zero, false⟩
    ((b.moveWithin l ⟨500, 900⟩ .teleport).2.position,
      (b.moveWithin l ⟨500, 900⟩ .velocity).2.position,
      (b.moveWithin l ⟨-1, -90⟩ .teleport).2.position) =
        (⟨90, 930⟩, ⟨90, 30⟩, ⟨10, 5⟩) ∧
      ClampLaw l b ⟨500, 900⟩ ∧ ClampLaw l b ⟨-1, -90⟩ := by
  intro l b
  exact ⟨by decide +kernel, clampLaw_moveWithin l b ⟨500, 900⟩, clampLaw_moveWithin l b ⟨-1, -90⟩⟩

end Barrage
