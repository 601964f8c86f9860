/-
RdEngine/Vnc/Accumulation.lean

Which frames a live session publishes.

The reference is the picture a server means: each update drawn on the picture
the one before it left (`reference`).  The reader draws each update on the buffer
`take_buffer` leaves behind, which has the reference's size and length and holds
only zeros (`Follows`).  Both drawings have the same provenance, so a published
frame is the reference's exactly when every byte its update kept or copied is
zero in the reference too (`accumulates_iff`); in particular an update that
leaves anything of the picture standing loses it.
-/
import Mathlib.Data.List.GetD
import RdEngine.Vnc.Live

namespace RdEngine

namespace Vnc

open Lts

/-! ### Drawing on a cleared picture -/

namespace Picture

/-- The picture of the same size and length that `take_buffer` leaves behind. -/
def cleared (picture : Picture) : Picture :=
  { picture with pixels := (takeBuffer picture.pixels).2 }

/-- Every byte of the picture that the update keeps or copies is zero. -/
def KeepsOnlyZeros (picture : Picture) (format : PixelFormat) (rectangles : List Rectangle) :
    Prop :=
  ∀ i, Cell.kept i ∈ provenance picture.width picture.height format rectangles
    picture.pixels.length → picture.pixels.getD i 0 = 0

theorem pixels_cleared (picture : Picture) :
    picture.cleared.pixels = picture.pixels.map fun _ => 0 :=
  List.map_const'.symm

theorem length_cleared (picture : Picture) :
    picture.cleared.pixels.length = picture.pixels.length :=
  List.length_replicate

theorem pixels_adopt (picture : Picture) (result : Bytes × Option (Nat × Nat)) :
    (picture.adopt result).pixels = result.1 := by
  rcases result with ⟨pixels, _ | ⟨w, h⟩⟩
  · rfl
  · rfl

theorem cleared_adopt (picture : Picture) (result : Bytes × Option (Nat × Nat)) :
    (picture.adopt result).cleared
      = picture.adopt (Prod.map (List.map fun _ => 0) id result) := by
  rcases result with ⟨pixels, _ | ⟨w, h⟩⟩
  · exact congrArg (Picture.mk _ _) (pixels_cleared ⟨picture.width, picture.height, pixels⟩)
  · exact congrArg (Picture.mk _ _) (pixels_cleared ⟨w, h, pixels⟩)

theorem pixels_apply (format : PixelFormat) (picture : Picture) (rectangles : List Rectangle) :
    (picture.apply format rectangles).pixels
      = (provenance picture.width picture.height format rectangles picture.pixels.length).map
          (Cell.value picture.pixels) := by
  rw [apply, pixels_adopt, applyRectangles_eq_provenance]

/-- Clearing forgets which picture an update was drawn on. -/
theorem cleared_apply_cleared (format : PixelFormat) (picture : Picture)
    (rectangles : List Rectangle) :
    (picture.cleared.apply format rectangles).cleared
      = (picture.apply format rectangles).cleared := by
  rw [apply, apply, cleared_adopt, cleared_adopt, applyRectangles_map, applyRectangles_map,
    pixels_cleared, List.map_map]
  rfl

/-- **Drawn on the cleared picture an update gives the same frame exactly when
it keeps only zeros.** -/
theorem apply_cleared_iff (format : PixelFormat) (picture : Picture)
    (rectangles : List Rectangle) :
    (picture.cleared.apply format rectangles).pixels = (picture.apply format rectangles).pixels ↔
      picture.KeepsOnlyZeros format rectangles := by
  have cleared : ∀ i, picture.cleared.pixels.getD i 0 = 0 := by
    intro i
    rw [List.getD_eq_getElem?_getD]
    exact List.getElem?_getD_replicate_default_eq _ _ i
  rw [pixels_apply, pixels_apply, length_cleared]
  constructor
  · intro h i hi
    have hcell := List.map_inj_left.mp h (.kept i) hi
    exact hcell.symm.trans (cleared i)
  · intro h
    apply List.map_congr_left
    intro cell hcell
    cases cell with
    | kept i => exact (cleared i).trans (h i hcell).symm
    | drawn byte => rfl

/-- Nothing is lost on a blank picture. -/
theorem keepsOnlyZeros_blank (width height : Nat) (format : PixelFormat)
    (rectangles : List Rectangle) : (blank width height).KeepsOnlyZeros format rectangles := by
  intro i _
  rw [List.getD_eq_getElem?_getD]
  exact List.getElem?_getD_replicate_default_eq _ _ i

end Picture

namespace Live

/-! ### The reference -/

def Event.update? : Event → Option (List Rectangle)
  | .receives (.framebufferUpdate rectangles) => some rectangles
  | _ => none

/-- The updates of a run, in order. -/
def updates (events : List Event) : List (List Rectangle) := events.filterMap Event.update?

/-- The picture the updates add up to. -/
def reference (session : LiveSession) (updates : List (List Rectangle)) : Picture :=
  updates.foldl (Picture.apply session.format)
    (.blank session.width.toNat session.height.toNat)

theorem reference_append (session : LiveSession) (us : List (List Rectangle))
    (u : List Rectangle) :
    reference session (us ++ [u]) = (reference session us).apply session.format u := by
  rw [reference, List.foldl_append]
  rfl

/-- Each frame published in the run is the reference's picture at its update. -/
def Accumulates (session : LiveSession) (events : List Event) (live : Live) : Prop :=
  ∀ n frame, live.published[n]? = some frame →
    frame = (reference session ((updates events).take (n + 1))).pixels

/-! ### What the reader publishes -/

/-- The frames published for a list of updates. -/
def frames (session : LiveSession) (us : List (List Rectangle)) : List Bytes :=
  us.mapIdx fun n u => ((reference session (us.take n)).cleared.apply session.format u).pixels

/-- The reader after the updates `us` of a run: it has published a frame for
each, the last one perhaps still drawn on its own buffer. -/
structure Follows (session : LiveSession) (us : List (List Rectangle)) (live : Live) : Prop where
  pending : live.reader = .drawn → ∃ before u, us = before ++ [u] ∧
    live.published = frames session before ∧
    live.picture = (reference session before).cleared.apply session.format u
  settled : live.reader ≠ .drawn → live.published = frames session us ∧
    live.picture = (reference session us).cleared

theorem frames_append (session : LiveSession) (us : List (List Rectangle)) (u : List Rectangle) :
    frames session (us ++ [u]) = frames session us ++
      [((reference session us).cleared.apply session.format u).pixels] := by
  rw [frames, List.mapIdx_append, List.mapIdx_singleton]
  congr 1
  · apply List.mapIdx_eq_mapIdx_iff.mpr
    intro n hn
    rw [List.take_append_of_le_length hn.le]
  · simp

theorem follows_opened (session : LiveSession) : Follows session [] (opened session) where
  pending := nofun
  settled _ := ⟨rfl, by
    simp [opened, reference, Picture.cleared, Picture.blank, takeBuffer]⟩

theorem Follows.same {session : LiveSession} {us : List (List Rectangle)} {s t : Live}
    (h : Follows session us s) (hpublished : t.published = s.published)
    (hpicture : t.picture = s.picture) (hreader : t.reader = .drawn ↔ s.reader = .drawn) :
    Follows session us t where
  pending ht := by
    rw [hpublished, hpicture]
    exact h.pending (hreader.mp ht)
  settled ht := by
    rw [hpublished, hpicture]
    exact h.settled (mt hreader.mpr ht)

theorem Follows.draw {session : LiveSession} {us : List (List Rectangle)} {s : Live}
    (h : Follows session us s) (hs : s.reader = .reading) (u : List Rectangle) :
    Follows session (us ++ [u]) (receive session (.framebufferUpdate u) s) where
  pending _ := by
    obtain ⟨hpublished, hpicture⟩ := h.settled (by rw [hs]; nofun)
    refine ⟨us, u, rfl, hpublished, ?_⟩
    rw [← hpicture]
    rfl
  settled ht := absurd rfl ht

theorem Follows.publish {session : LiveSession} {us : List (List Rectangle)} {s : Live}
    (h : Follows session us s) (hs : s.reader = .drawn) : Follows session us (publish s) where
  pending := nofun
  settled _ := by
    obtain ⟨before, u, rfl, hpublished, hpicture⟩ := h.pending hs
    constructor
    · rw [frames_append, ← hpublished, ← hpicture]
      rfl
    · rw [reference_append, ← Picture.cleared_apply_cleared, ← hpicture]
      rfl

theorem updates_append (es : List Event) (e : Event) :
    updates (es ++ [e]) = updates es ++ e.update?.toList := by
  rw [updates, List.filterMap_append]
  cases h : e.update? <;> simp [updates, h]

theorem follows_step {session : LiveSession} {us : List (List Rectangle)} {s : Live} {e : Event}
    {t : Live} (h : Follows session us s) (hstep : Step session s e t) :
    Follows session (us ++ e.update?.toList) t := by
  have quiet : e.update? = none → Follows session us t →
      Follows session (us ++ e.update?.toList) t := by
    intro he ht
    rw [he, Option.toList_none, List.append_nil]
    exact ht
  -- only a received update and its publication move the reader in or out of `drawn`
  cases hstep with
  | checkClosed hs =>
    refine quiet rfl (h.same rfl rfl ?_)
    rw [checkClosed, hs]
    cases s.closed <;> simp
  | receives message hs =>
    cases message with
    | framebufferUpdate u => exact h.draw hs u
    | clipboard text => exact quiet rfl (h.same rfl rfl (by simp [receive, hs]))
    | bell => exact quiet rfl (h.same rfl rfl (by simp [receive, hs]))
    | colourMapIgnored entries => exact quiet rfl (h.same rfl rfl (by simp [receive, hs]))
  | readFails error hs => exact quiet rfl (h.same rfl rfl (by simp [hs]))
  | publish hs => exact quiet rfl (h.publish hs)
  | keepClipboard hs => exact quiet rfl (h.same rfl rfl (by simp [keepClipboard, hs]))
  | settleFailure hs => exact quiet rfl (h.same rfl rfl (by simp [settleFailure, hs]))
  | stops hs => exact quiet rfl (h.same rfl rfl (by simp [stop, hs]))
  | takeFrame hs =>
    refine quiet rfl (h.same ?_ ?_ ?_)
    all_goals
      unfold takeFrame
      split <;> simp
  | takeClipboard hs => exact quiet rfl (h.same rfl rfl Iff.rfl)
  | close => exact quiet rfl (h.same rfl rfl Iff.rfl)

theorem follows {session : LiveSession} {es : List Event} {s : Live}
    (h : Run (Step session) (opened session) es s) : Follows session (updates es) s :=
  Run.history (P := fun es s => Follows session (updates es) s)
    (fun es s e t hP hstep => by
      rw [updates_append]
      exact follows_step hP hstep)
    h (follows_opened session)

/-- The published frames are those of the updates, the last one perhaps still to
come. -/
theorem Follows.published {session : LiveSession} {us : List (List Rectangle)} {s : Live}
    (h : Follows session us s) : s.published <+: frames session us := by
  by_cases hs : s.reader = .drawn
  · obtain ⟨before, u, rfl, hpublished, -⟩ := h.pending hs
    rw [hpublished, frames_append]
    exact List.prefix_append ..
  · exact (h.settled hs).1 ▸ List.prefix_rfl

theorem Follows.frame {session : LiveSession} {us : List (List Rectangle)} {s : Live}
    (h : Follows session us s) {n : Nat} {frame : Bytes} (hframe : s.published[n]? = some frame) :
    ∃ u, us[n]? = some u ∧
      frame = ((reference session (us.take n)).cleared.apply session.format u).pixels := by
  obtain ⟨hn, rfl⟩ := List.getElem?_eq_some_iff.mp hframe
  have hlength : n < us.length := by
    have := h.published.length_le
    rw [frames, List.length_mapIdx] at this
    omega
  refine ⟨us[n], List.getElem?_eq_getElem hlength, ?_⟩
  rw [h.published.getElem hn]
  exact List.getElem_mapIdx

theorem reference_take_succ (session : LiveSession) {us : List (List Rectangle)} {n : Nat}
    {u : List Rectangle} (hu : us[n]? = some u) :
    reference session (us.take (n + 1))
      = (reference session (us.take n)).apply session.format u := by
  rw [List.take_add_one, hu]
  exact reference_append session (us.take n) u

/-- **The frames a live session publishes add up the updates exactly when every
update it has published keeps only zeros**: of each published update, every
byte it leaves standing or copies is zero in the picture that the updates before
it add up to.  The frontend's calls and their timing play no part. -/
theorem accumulates_iff {session : LiveSession} {es : List Event} {s : Live}
    (h : Run (Step session) (opened session) es s) :
    Accumulates session es s ↔
      ∀ n u, n < s.published.length → (updates es)[n]? = some u →
        (reference session ((updates es).take n)).KeepsOnlyZeros session.format u := by
  have hfollows := follows h
  constructor
  · intro hacc n u hn hu
    obtain ⟨u', hu', hframe⟩ := hfollows.frame (List.getElem?_eq_getElem hn)
    obtain rfl : u' = u := Option.some.inj (hu'.symm.trans hu)
    rw [← Picture.apply_cleared_iff, ← hframe, ← reference_take_succ session hu]
    exact hacc n _ (List.getElem?_eq_getElem hn)
  · intro hzeros n frame hframe
    obtain ⟨u, hu, rfl⟩ := hfollows.frame hframe
    have hn : n < s.published.length := (List.getElem?_eq_some_iff.mp hframe).1
    rw [reference_take_succ session hu, Picture.apply_cleared_iff]
    exact hzeros n u hn hu

/-! ### The frames the frontend takes -/

theorem shared_published {session : LiveSession} {es : List Event} {s : Live}
    (h : Run (Step session) (opened session) es s) :
    s.shared.framebuffer = s.published.getLast?.getD [] := by
  refine h.invariant (I := fun s => s.shared.framebuffer = s.published.getLast?.getD []) ?_ rfl
  intro s e t hs hstep
  cases hstep with
  | receives message => cases message <;> exact hs
  | publish => simp [publish]
  | settleFailure =>
    unfold settleFailure
    split <;> exact hs
  | takeFrame =>
    unfold takeFrame
    split <;> exact hs
  | checkClosed | readFails | keepClipboard | stops | takeClipboard | close => exact hs

/-- A taken frame is the last one published, and it was not taken before. -/
theorem takeFrame_published {session : LiveSession} {es : List Event} {s : Live}
    (h : Run (Step session) (opened session) es s) {width height : Nat} {frame : Bytes}
    (htake : (takeFrame session s).1 = some (width, height, frame)) :
    s.published.getLast? = some frame ∧ s.shared.frameReady = true := by
  unfold takeFrame at htake
  split at htake
  · nomatch htake
  · rename_i hready
    rw [Bool.or_eq_true, not_or, Bool.not_eq_true', Bool.not_eq_false] at hready
    obtain ⟨hready, hempty⟩ := hready
    obtain rfl : s.shared.framebuffer = frame := by
      simp only [Option.some.injEq, Prod.mk.injEq] at htake
      exact htake.2.2
    refine ⟨?_, hready⟩
    rw [shared_published h] at hempty ⊢
    cases hlast : s.published.getLast? with
    | none => simp [hlast] at hempty
    | some frame => rfl

/-! ### A screen of two pixels -/

/-- A session of two pixels in the format the client prefers. -/
def twoPixels : LiveSession := ⟨preferredPixelFormat, 2, 1⟩

/-- A white screen. -/
def whiteScreen : List Rectangle := [.raw 0 0 2 1 (.replicate 8 0xff)]

/-- Its right pixel turned black. -/
def blackPixel : List Rectangle := [.raw 1 0 1 1 [0, 0, 0, 0]]

/-- The reader receives an update and publishes its frame. -/
def round (rectangles : List Rectangle) : List Event :=
  [.checkClosed, .receives (.framebufferUpdate rectangles), .locks]

theorem run_round {session : LiveSession} {s : Live} (h : s.reader = .looping)
    (hopen : s.closed = false) (rectangles : List Rectangle) :
    Run (Step session) s (round rectangles)
      (publish (receive session (.framebufferUpdate rectangles) (checkClosed s))) := by
  have hreading : (checkClosed s).reader = .reading := by
    simp [checkClosed, hopen]
  exact .cons (.checkClosed h) (.cons (.receives _ hreading) (.single (.publish rfl)))

/-- Two updates of the whole screen, with the first frame taken in between. -/
def whiteAgain : List Event := round whiteScreen ++ .takeFrame :: round whiteScreen

theorem accumulates_iff_white : ∃ s, Run (Step twoPixels) (opened twoPixels) whiteAgain s ∧
    s.published.length = 2 ∧ Accumulates twoPixels whiteAgain s := by
  have hwhite : Run (Step twoPixels) (opened twoPixels) _ _ := run_round rfl rfl whiteScreen
  have hrun : Run (Step twoPixels) (opened twoPixels) whiteAgain _ :=
    hwhite.append (.cons (.takeFrame (by rintro ⟨⟩)) (run_round rfl rfl whiteScreen))
  refine ⟨_, hrun, rfl, (accumulates_iff hrun).mpr ?_⟩
  intro n u hn hu
  match n with
  | 0 => exact Picture.keepsOnlyZeros_blank _ _ _ _
  | 1 =>
    -- The second update draws every byte, so it keeps none.
    obtain rfl : whiteScreen = u := Option.some.inj hu
    intro i hi
    have hdrawn : ∀ cell ∈ provenance 2 1 preferredPixelFormat whiteScreen 8,
        cell = .drawn 0xff := by decide
    cases hdrawn _ hi
  | n + 2 => exact absurd (show n + 2 < 2 from hn) (by omega)

/-- The second frame has lost the left pixel: it is transparent black where the
first update made it white. -/
theorem not_accumulated : ¬ ∀ (session : LiveSession) (es : List Event) (s : Live),
    Run (Step session) (opened session) es s → Accumulates session es s := by
  intro h
  have hwhite : Run (Step twoPixels) (opened twoPixels) _ _ := run_round rfl rfl whiteScreen
  have hrun := hwhite.append (run_round rfl rfl blackPixel)
  have hframe := h twoPixels _ _ hrun 1 [0, 0, 0, 0, 0, 0, 0, 0xff] (by decide)
  exact absurd hframe (by decide)

end Live

end Vnc

end RdEngine
