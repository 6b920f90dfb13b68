import Mathlib.Tactic.Linarith
import Mathlib.Tactic.Ring
import Barrage.Proofs.Number.Exact
import Barrage.World.Confinement

/-!
# Boxes within borders

A box lies within borders if it does so along each axis (`Limits.Encloses`), and a displacement is
checked along one axis at a time. From within the borders a displacement either fits, and then it
leads to a place within them, or it would cross the border ahead, and then the room up to it leads
to a place within them that is flush with it (`checkAxis_cases`). So a body that is moved within
limits stays inside (`Limits.Encloses.teleport`). The other way to keep a body between borders, to
bring it back, leads inside from anywhere, if the box fits between them at all
(`within_confineAxis`).
-/

namespace Barrage

/-- An axis of the screen. -/
inductive Axis where
  | x
  | y
  deriving DecidableEq

section
variable {K : Type}

/-- The component of a vector along an axis. -/
def Vec.along (v : Vec K) : Axis → K
  | .x => v.x
  | .y => v.y

/-- The first border of a rectangle along an axis. -/
def Rect.low (r : Rect K) : Axis → K
  | .x => r.left
  | .y => r.top

/-- The second one. -/
def Rect.high (r : Rect K) : Axis → K
  | .x => r.right
  | .y => r.bottom

/-- The first limit along an axis. -/
def Limits.low (l : Limits K) : Axis → Option K
  | .x => l.left
  | .y => l.top

/-- The second one. -/
def Limits.high (l : Limits K) : Axis → Option K
  | .x => l.right
  | .y => l.bottom

/-- Whether a displacement fits along an axis. -/
def AxisMoves.along (m : AxisMoves) : Axis → Bool
  | .x => m.x
  | .y => m.y

variable [Scalar K]

/-- The check of a displacement of a body along an axis. -/
def Limits.check (l : Limits K) (b : Body K) (a : Axis) (delta : Vec K) : AxisCheck K :=
  checkAxis (b.position.along a) (b.half.along a) (delta.along a) (l.low a) (l.high a)

/-- A step leaves a body its extent, and whether it is kept inside the bounds of its world. -/
theorem Body.shape_step (b : Body K) (bounds : Rect K) (dt : K) :
    (b.step bounds dt).half = b.half ∧ (b.step bounds dt).bounded = b.bounded := by
  rw [step]
  split <;> exact ⟨rfl, rfl⟩

/-- A displacement that fits is left to the velocity of the body, or carried out at once. -/
theorem AxisCheck.shift_of_possible {c : AxisCheck K} (h : c.possible = true) (delta : K)
    (mode : MoveMode) : c.shift delta mode = if mode = .teleport then delta else 0 := by
  obtain ⟨possible, room⟩ := c
  subst h
  cases mode <;> rfl

/-- Along each axis a body is moved by what the check of that axis allows. -/
theorem Body.along_moveWithin (b : Body K) (l : Limits K) (delta : Vec K) (mode : MoveMode)
    (a : Axis) : (b.moveWithin l delta mode).2.position.along a =
      b.position.along a + (l.check b a delta).shift (delta.along a) mode := by
  cases a <;> rfl

/-- Along each axis a movement fits if the check of that axis says so. -/
theorem Body.fits_moveWithin (b : Body K) (l : Limits K) (delta : Vec K) (mode : MoveMode)
    (a : Axis) : (b.moveWithin l delta mode).1.along a = (l.check b a delta).possible := by
  cases a <;> rfl

end

variable {K : Type} [Field K] [LinearOrder K] [IsStrictOrderedRing K] [Elementary K]

/-! ## One axis -/

/-- An extent around a position lies between two borders, as far as they are closed. -/
structure Within (lo hi : Option K) (position half : K) : Prop where
  low : ∀ border ∈ lo, border ≤ position - half
  high : ∀ border ∈ hi, position + half ≤ border

section
variable {lo hi : Option K} {position half delta : K}

/-- A displacement that would lead across a border, with the room up to it. -/
inductive Blocked (lo hi : Option K) (position half delta room : K) : Prop where
  | low {border : K} (hdelta : delta < 0) (hborder : lo = some border)
      (hflush : position + room - half = border)
  | high {border : K} (hdelta : 0 < delta) (hborder : hi = some border)
      (hflush : position + room + half = border)

/-- From within the borders a displacement fits, or it would lead across the border ahead. -/
theorem checkAxis_cases (h : Within lo hi position half) (delta : K) :
    ((checkAxis position half delta lo hi).possible = true ∧
      Within lo hi (position + delta) half) ∨
    ∃ room, checkAxis position half delta lo hi = ⟨false, some room⟩ ∧
      Blocked lo hi position half delta room ∧ Within lo hi (position + room) half := by
  obtain ⟨hlow, hhigh⟩ := h
  unfold checkAxis
  split
  · next hneg =>
    have hback : ∀ border ∈ hi, position + delta + half ≤ border := fun border hborder => by
      linarith [hhigh border hborder]
    cases lo with
    | none => exact .inl ⟨rfl, nofun, hback⟩
    | some border =>
      have hborder := hlow border rfl
      dsimp only
      by_cases hroom : -(position - half - border) ≤ delta
      · refine .inl ⟨decide_eq_true hroom, ?_, hback⟩
        rintro _ ⟨⟩
        linarith
      · refine .inr ⟨-(position - half - border), by rw [decide_eq_false hroom],
          .low hneg rfl (by ring), ?_, ?_⟩
        · rintro _ ⟨⟩
          linarith
        · intro other hother
          linarith [hhigh other hother]
  · next hneg =>
    split
    · next hpos =>
      have hback : ∀ border ∈ lo, border ≤ position + delta - half := fun border hborder => by
        linarith [hlow border hborder]
      cases hi with
      | none => exact .inl ⟨rfl, hback, nofun⟩
      | some border =>
        have hborder := hhigh border rfl
        dsimp only
        by_cases hroom : delta ≤ border - (position + half)
        · refine .inl ⟨decide_eq_true hroom, hback, ?_⟩
          rintro _ ⟨⟩
          linarith
        · refine .inr ⟨border - (position + half), by rw [decide_eq_false hroom],
            .high hpos rfl (by ring), ?_, ?_⟩
          · intro other hother
            linarith [hlow other hother]
          · rintro _ ⟨⟩
            linarith
    · next hpos =>
      have hzero : delta = 0 := le_antisymm (not_lt.1 hpos) (not_lt.1 hneg)
      rw [hzero, add_zero]
      exact .inl ⟨rfl, hlow, hhigh⟩

/-- What is carried out at once leads to a place within the borders. -/
theorem Within.teleport (h : Within lo hi position half) :
    Within lo hi (position + (checkAxis position half delta lo hi).shift delta .teleport) half := by
  rcases checkAxis_cases h delta with ⟨hfits, hwithin⟩ | ⟨room, hcheck, -, hwithin⟩
  · rw [AxisCheck.shift_of_possible hfits, if_pos rfl]
    exact hwithin
  · rw [hcheck]
    exact hwithin

/-- What is brought back between two borders that are wide enough apart lies between them. -/
theorem within_confineAxis {velocity lo hi : K} (hroom : half + half ≤ hi - lo) :
    Within (some lo) (some hi) (Body.confineAxis position velocity half lo hi).1 half := by
  unfold Body.confineAxis
  split
  · constructor <;> (rintro _ ⟨⟩; dsimp only; linarith)
  · next hlow =>
    split
    · constructor <;> (rintro _ ⟨⟩; dsimp only; linarith)
    · next hhigh =>
      rw [not_lt] at hlow hhigh
      constructor <;> (rintro _ ⟨⟩; dsimp only; linarith)

end

/-! ## Boxes -/

/-- A rectangle lies within limits: it crosses none of the closed borders. -/
structure Limits.Encloses (l : Limits K) (r : Rect K) : Prop where
  low : ∀ a, ∀ border ∈ l.low a, border ≤ r.low a
  high : ∀ a, ∀ border ∈ l.high a, r.high a ≤ border

/-- The borders of a body's box are half its extent away from its position. -/
theorem Body.low_rect (b : Body K) (a : Axis) :
    b.rect.low a = b.position.along a - b.half.along a := by
  cases a <;>
    simp only [Rect.low, Body.rect, Rect.ofMidpoint, Body.width, Body.height, Vec.along,
      Scalar.whole_exact] <;>
    push_cast <;> ring

/-- The high border of a box is half its extent from its centre. -/
theorem Body.high_rect (b : Body K) (a : Axis) :
    b.rect.high a = b.position.along a + b.half.along a := by
  cases a <;>
    simp only [Rect.high, Body.rect, Rect.ofMidpoint, Body.width, Body.height, Vec.along,
      Scalar.whole_exact] <;>
    push_cast <;> ring

/-- A body is within limits if it is so along each axis. -/
theorem Limits.encloses_rect_iff {l : Limits K} {b : Body K} : l.Encloses b.rect ↔
    ∀ a, Within (l.low a) (l.high a) (b.position.along a) (b.half.along a) := by
  constructor
  · intro h a
    exact ⟨b.low_rect a ▸ h.low a, b.high_rect a ▸ h.high a⟩
  · intro h
    refine ⟨fun a => ?_, fun a => ?_⟩
    · rw [b.low_rect]
      exact (h a).low
    · rw [b.high_rect]
      exact (h a).high

/-- A body that is moved at once within limits stays inside. -/
theorem Limits.Encloses.teleport {l : Limits K} {b : Body K} (h : l.Encloses b.rect)
    (delta : Vec K) : l.Encloses (b.moveWithin l delta .teleport).2.rect := by
  rw [encloses_rect_iff] at h ⊢
  intro a
  rw [b.along_moveWithin]
  exact (h a).teleport

/-- A body that is brought back inside a rectangle that is large enough is inside it. -/
theorem encloses_confine {bounds : Rect K} {b : Body K}
    (hroom : ∀ a, b.half.along a + b.half.along a ≤ bounds.high a - bounds.low a) :
    (Limits.ofRect bounds).Encloses (b.confine bounds).rect := by
  rw [Limits.encloses_rect_iff]
  intro a
  cases a with
  | x => exact within_confineAxis (hroom .x)
  | y => exact within_confineAxis (hroom .y)

end Barrage
