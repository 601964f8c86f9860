/-
RdEngine/Vnc/Resize.lean

The size of a live session's framebuffer, and the sizes its calls go by.

The reader keeps the size of its buffer with the buffer, and the two always
fit (`Picture.Fits`).  What the frontend is told and what its calls check
against is the size the session was opened with.  The two agree in every state
of a run exactly when every resize in it ends with that size
(`sizes_agree_iff`).
-/
import RdEngine.Vnc.Accumulation
import RdEngine.Vnc.Frontend

namespace RdEngine

namespace Vnc

open Loops (Flow loop loop_keeps)
open Lts
open Words (be ofBe)

/-! ### Drawing keeps the length -/

section Length

variable {α : Type*} (paint : UInt8 → α)

@[simp] theorem length_storePixel (framebuffer : List α) (target : Nat) (rgb : UInt32) :
    (storePixel paint framebuffer target rgb).length = framebuffer.length := by
  simp [storePixel]

theorem length_overwrite {framebuffer : List α} {start : Nat} {bytes : List α}
    (h : start + bytes.length ≤ framebuffer.length) :
    (overwrite framebuffer start bytes).length = framebuffer.length := by
  simp only [overwrite, List.length_append, List.length_take, List.length_drop]
  omega

/-- Loops over rows and columns whose body keeps the length. -/
theorem length_draw {store : Nat → Nat → List α → Flow (List α)}
    (hstore : ∀ row column cells, (store row column cells).value.length = cells.length)
    (below : Nat → Prop) [DecidablePred below] (rows columns : Nat) (framebuffer : List α) :
    (loop (fun row cells => if below row then .leave cells else loop (store row) columns cells)
      rows framebuffer).value.length = framebuffer.length := by
  refine loop_keeps (I := fun cells : List α => cells.length = framebuffer.length) ?_ _ rfl
  intro row cells hcells
  split_ifs
  · exact hcells
  · exact loop_keeps (I := fun cells : List α => cells.length = framebuffer.length)
      (fun column cells hcells => (hstore row column cells).trans hcells) _ hcells

theorem length_blitRaw (width height : Nat) (format : PixelFormat) (x y rw rh : UInt16)
    (pixels : Bytes) (framebuffer : List α) :
    (blitRaw paint width height format x y rw rh pixels framebuffer).length
      = framebuffer.length := by
  refine length_draw (fun row column cells => ?_) _ _ _ _
  dsimp only
  split_ifs
  · rfl
  · rfl
  · rfl
  · cases format.decodePixel (pixels.drop _) with
    | ok rgb => exact length_storePixel ..
    | error e => rfl

theorem length_copyRect (width height : Nat) (x y rw rh srcX srcY : UInt16)
    (framebuffer : List α) :
    (copyRect paint width height x y rw rh srcX srcY framebuffer).length = framebuffer.length := by
  refine loop_keeps (I := fun cells : List α => cells.length = framebuffer.length) ?_ _ rfl
  intro row rows hrows
  dsimp only
  split_ifs with hbelow hfits
  · exact hrows
  · exact hrows
  · refine (length_overwrite ?_).trans hrows
    have hstaged := List.length_take_le (rw.toNat * rgbaBytesPerPixel)
      ((stageRows paint width height rw rh srcX srcY framebuffer).drop
        (row * (rw.toNat * rgbaBytesPerPixel)))
    omega

theorem length_fillSolid (width height : Nat) (format : PixelFormat) (x y rw rh : UInt16)
    (pixel : Bytes) (framebuffer : List α) :
    (fillSolid paint width height format x y rw rh pixel framebuffer).length
      = framebuffer.length := by
  rw [fillSolid]
  cases format.decodePixel pixel with
  | error e => rfl
  | ok rgb =>
    refine length_draw (fun row column cells => ?_) _ _ _ _
    dsimp only
    split_ifs
    · rfl
    · rfl
    · exact length_storePixel ..

theorem length_applyRectangle (width height : Nat) (format : PixelFormat)
    (state : List α × Option (Nat × Nat)) (rectangle : Rectangle) :
    (applyRectangle paint width height format state rectangle).1.length = state.1.length := by
  cases rectangle with
  | raw x y rw rh pixels => exact length_blitRaw ..
  | copyRect x y rw rh srcX srcY => exact length_copyRect ..
  | solid x y rw rh pixel => exact length_fillSolid ..
  | desktopSize w h => rfl

end Length

/-! ### The size an update asks for -/

def Rectangle.size? : Rectangle → Option (UInt16 × UInt16)
  | .desktopSize width height => some (width, height)
  | _ => none

/-- The last size among the rectangles of an update. -/
def resized (rectangles : List Rectangle) : Option (UInt16 × UInt16) :=
  (rectangles.filterMap Rectangle.size?).getLast?

theorem resized_append (rectangles : List Rectangle) (rectangle : Rectangle) :
    resized (rectangles ++ [rectangle]) = rectangle.size?.or (resized rectangles) := by
  rw [resized, List.filterMap_append]
  cases hsize : rectangle.size? with
  | none => simp [resized, hsize]
  | some size => simp [hsize]

/-- Up to the end of an update: the buffer has its length, and the size asked for
is the last one. -/
theorem foldl_applyRectangle {α : Type*} (paint : UInt8 → α) (width height : Nat)
    (format : PixelFormat) (framebuffer : List α) (rectangles : List Rectangle) :
    (rectangles.foldl (applyRectangle paint width height format) (framebuffer, none)).1.length
        = framebuffer.length ∧
      (rectangles.foldl (applyRectangle paint width height format) (framebuffer, none)).2
        = (resized rectangles).map (Prod.map UInt16.toNat UInt16.toNat) := by
  refine foldl_history (P := fun rectangles (state : List α × Option (Nat × Nat)) => state.1.length = framebuffer.length ∧
    state.2 = (resized rectangles).map (Prod.map UInt16.toNat UInt16.toNat)) ⟨rfl, rfl⟩ ?_
    rectangles
  rintro before state rectangle ⟨hlength, hsize⟩
  refine ⟨(length_applyRectangle ..).trans hlength, ?_⟩
  rw [resized_append]
  cases rectangle with
  | desktopSize w h => rfl
  | raw | copyRect | solid => exact hsize

namespace Picture

/-- The buffer is as long as its size says. -/
def Fits (picture : Picture) : Prop :=
  picture.pixels.length = picture.width * picture.height * rgbaBytesPerPixel

def size (picture : Picture) : Nat × Nat := (picture.width, picture.height)

theorem fits_blank (width height : Nat) : (blank width height).Fits := List.length_replicate

theorem size_apply (format : PixelFormat) (picture : Picture) (rectangles : List Rectangle) :
    (picture.apply format rectangles).size
      = ((resized rectangles).map (Prod.map UInt16.toNat UInt16.toNat)).getD picture.size := by
  have hsize := (foldl_applyRectangle id picture.width picture.height format picture.pixels
    rectangles).2
  rw [apply, applyRectangles]
  rcases hfold : rectangles.foldl (applyRectangle id picture.width picture.height format)
    (picture.pixels, none) with ⟨pixels, size⟩
  rw [hfold] at hsize
  rw [← hsize]
  cases size with
  | none => rfl
  | some size => rfl

theorem Fits.apply {picture : Picture} (h : picture.Fits) (format : PixelFormat)
    (rectangles : List Rectangle) : (picture.apply format rectangles).Fits := by
  have hlength := (foldl_applyRectangle id picture.width picture.height format picture.pixels
    rectangles).1
  rw [Picture.apply, applyRectangles]
  rcases hfold : rectangles.foldl (applyRectangle id picture.width picture.height format)
    (picture.pixels, none) with ⟨pixels, size⟩
  rw [hfold] at hlength
  cases size with
  | none => exact hlength.trans h
  | some size => exact List.length_replicate

theorem Fits.cleared {picture : Picture} (h : picture.Fits) : picture.cleared.Fits :=
  picture.length_cleared.trans h

end Picture

namespace Live

variable {session : LiveSession}

/-! ### The size of what was drawn -/

theorem fits_reference (session : LiveSession) (us : List (List Rectangle)) :
    (reference session us).Fits :=
  foldl_invariant (I := Picture.Fits) (Picture.fits_blank _ _)
    (fun _ u h => h.apply session.format u) us

/-- The reader's buffer has the size of the picture the updates add up to. -/
theorem Follows.size {us : List (List Rectangle)} {s : Live} (h : Follows session us s) :
    s.picture.size = (reference session us).size := by
  by_cases hs : s.reader = .drawn
  · obtain ⟨before, u, rfl, -, hpicture⟩ := h.pending hs
    rw [hpicture, reference_append, Picture.size_apply, Picture.size_apply]
    rfl
  · rw [(h.settled hs).2]
    rfl

/-- A published frame is as long as the size it was drawn at says. -/
theorem Follows.length_frame {us : List (List Rectangle)} {s : Live} (h : Follows session us s)
    {n : Nat} {frame : Bytes} (hframe : s.published[n]? = some frame) :
    frame.length = (reference session (us.take (n + 1))).width *
      (reference session (us.take (n + 1))).height * rgbaBytesPerPixel := by
  obtain ⟨u, hu, rfl⟩ := h.frame hframe
  have hfits := (fits_reference session (us.take n)).cleared.apply session.format u
  have hsize : ((reference session (us.take n)).cleared.apply session.format u).size
      = (reference session (us.take (n + 1))).size := by
    rw [reference_take_succ session hu, Picture.size_apply, Picture.size_apply]
    rfl
  obtain ⟨hwidth, hheight⟩ := Prod.mk.inj hsize
  rw [← hwidth, ← hheight]
  exact hfits

/-! ### The sizes the frontend goes by -/

/-- A frame that is taken has the size it was drawn at and as many bytes as that
takes; a refresh asks for the framebuffer, and the pointer may go to its pixels
and nowhere else. -/
structure SizesAgree (session : LiveSession) (es : List Event) (s : Live) : Prop where
  frame : ∀ width height pixels, (takeFrame session s).1 = some (width, height, pixels) →
    pixels.length = width * height * rgbaBytesPerPixel ∧
      (width, height) = (reference session ((updates es).take s.published.length)).size
  refresh : refresh session = encodeFramebufferUpdateRequest false 0 0 (.ofNat s.picture.width)
    (.ofNat s.picture.height)
  mouse : ∀ buttons x y, (sendMouse session buttons x y).isOk = true ↔
    x.toNat < s.picture.width ∧ y.toNat < s.picture.height

/-- The update leaves the framebuffer at the size the session was opened with. -/
def KeepsSize (session : LiveSession) (rectangles : List Rectangle) : Prop :=
  ∀ size, resized rectangles = some size → size = (session.width, session.height)

theorem size_reference {us : List (List Rectangle)} (h : ∀ u ∈ us, KeepsSize session u) :
    (reference session us).size = (session.width.toNat, session.height.toNat) := by
  induction us using List.reverseRecOn with
  | nil => rfl
  | append_singleton us u ih =>
    have hu := h u (List.mem_append_right _ List.mem_cons_self)
    have hbefore := ih fun v hv => h v (List.mem_append_left _ hv)
    rw [reference_append, Picture.size_apply]
    cases hresized : resized u with
    | none => exact hbefore
    | some size =>
      rw [hu size hresized]
      rfl

theorem isOk_sendMouse (buttons : UInt8) (x y : UInt16) :
    (sendMouse session buttons x y).isOk = true ↔
      x.toNat < session.width.toNat ∧ y.toNat < session.height.toNat := by
  rw [sendMouse]
  split_ifs with h
  · simp only [ge_iff_le, UInt16.le_iff_toNat_le] at h
    simp only [Except.isOk, Except.toBool, Bool.false_eq_true, false_iff]
    omega
  · simp only [ge_iff_le, UInt16.le_iff_toNat_le] at h
    simp only [Except.isOk, Except.toBool, true_iff]
    omega

theorem be_two_inj {a b : UInt16} (h : be 2 a.toNat = be 2 b.toNat) : a = b := by
  have hread := congrArg ofBe h
  rw [Words.ofBe_be_of_lt a.toNat_lt, Words.ofBe_be_of_lt b.toNat_lt] at hread
  exact UInt16.toNat_inj.mp hread

/-- A request names the size it asks for. -/
theorem request_inj {width height width' height' : UInt16}
    (h : encodeFramebufferUpdateRequest false 0 0 width height
      = encodeFramebufferUpdateRequest false 0 0 width' height') :
    width = width' ∧ height = height' := by
  obtain ⟨hfront, hheight⟩ := List.append_inj' h (by simp)
  obtain ⟨-, hwidth⟩ := List.append_inj' hfront (by simp)
  exact ⟨be_two_inj hwidth, be_two_inj hheight⟩

/-- Updates that keep the size keep the sizes in agreement. -/
theorem sizesAgree_of_keeps {es : List Event} {s : Live}
    (h : Run (Step session) (opened session) es s) (hkeeps : ∀ u ∈ updates es, KeepsSize session u) :
    SizesAgree session es s := by
  have hfollows := follows h
  have hsize : s.picture.size = (session.width.toNat, session.height.toNat) :=
    hfollows.size.trans (size_reference hkeeps)
  obtain ⟨hwidth, hheight⟩ := Prod.mk.inj hsize
  refine ⟨fun width height pixels htake => ?_, ?_, fun buttons x y => ?_⟩
  · have htaken : (width, height) = (session.width.toNat, session.height.toNat) := by
      unfold takeFrame at htake
      split at htake
      · cases htake
      · cases htake
        rfl
    have hdrawn : (reference session ((updates es).take s.published.length)).size
        = (session.width.toNat, session.height.toNat) :=
      size_reference fun u hu => hkeeps u (List.mem_of_mem_take hu)
    -- the frame is the last one published
    obtain ⟨hlast, -⟩ := takeFrame_published h htake
    rw [List.getLast?_eq_getElem?] at hlast
    have hpos : s.published.length - 1 + 1 = s.published.length := by
      have := (List.getElem?_eq_some_iff.mp hlast).1
      omega
    have hlength := hfollows.length_frame hlast
    rw [hpos] at hlength
    obtain ⟨hw, hh⟩ := Prod.mk.inj hdrawn
    obtain ⟨rfl, rfl⟩ := Prod.mk.inj htaken
    rw [hw, hh] at hlength
    exact ⟨hlength, hdrawn.symm⟩
  · rw [hwidth, hheight, UInt16.ofNat_toNat, UInt16.ofNat_toNat]
    rfl
  · rw [hwidth, hheight]
    exact isOk_sendMouse buttons x y

/-- **The sizes agree in every state of a run exactly when every resize in it
ends with the size the session was opened with.** -/
theorem sizes_agree_iff {es : List Event} {s : Live}
    (h : Run (Step session) (opened session) es s) :
    (∀ before after t, es = before ++ after → Run (Step session) (opened session) before t →
      Run (Step session) t after s → SizesAgree session before t) ↔
    ∀ u ∈ updates es, KeepsSize session u := by
  constructor
  · intro hagree u hu size hsize
    obtain ⟨e, he, hupdate⟩ := List.mem_filterMap.mp hu
    obtain ⟨before, after, rfl⟩ := List.append_of_mem he
    obtain ⟨t, hbefore, hafter⟩ := h.split
    cases hafter with
    | @cons _ t' _ _ _ hstep hrest =>
      have hnext := hagree (before ++ [e]) after t' (by simp) (hbefore.snoc hstep) hrest
      -- the update is drawn, and the reader has taken over its size
      obtain rfl : e = .receives (.framebufferUpdate u) := by
        cases e with
        | receives message =>
          cases message with
          | framebufferUpdate rectangles => exact congrArg _ (congrArg _ (Option.some.inj hupdate))
          | clipboard | bell | colourMapIgnored => cases hupdate
        | _ => cases hupdate
      cases hstep with
      | receives message hreading =>
        have hpicture := t.picture.size_apply session.format u
        rw [hsize] at hpicture
        obtain ⟨hwidth, hheight⟩ := Prod.mk.inj hpicture
        have hrefresh := request_inj hnext.refresh
        change session.width = .ofNat (t.picture.apply session.format u).width ∧
          session.height = .ofNat (t.picture.apply session.format u).height at hrefresh
        rw [hwidth, hheight] at hrefresh
        simp only [UInt16.ofNat_toNat] at hrefresh
        exact Prod.ext hrefresh.1.symm hrefresh.2.symm
  · rintro hkeeps before after t rfl hbefore -
    refine sizesAgree_of_keeps hbefore fun u hu => hkeeps u ?_
    rw [updates, List.filterMap_append]
    exact List.mem_append_left _ hu

/-- The screen of two pixels as it is opened and drawn once. -/
theorem sizes_agree_iff_white : ∃ s, Run (Step twoPixels) (opened twoPixels) (round whiteScreen) s ∧
    (takeFrame twoPixels s).1.isSome = true ∧ SizesAgree twoPixels (round whiteScreen) s := by
  have hrun : Run (Step twoPixels) (opened twoPixels) _ _ := run_round rfl rfl whiteScreen
  refine ⟨_, hrun, by decide, (sizes_agree_iff hrun).mpr ?_ _ [] _ (by simp) hrun (.nil _)⟩
  rintro u hu size hsize
  obtain rfl : whiteScreen = u := by simpa [updates, round, Event.update?] using hu
  cases hsize

/-- The screen shrinks to one pixel: its frame is handed out as two. -/
theorem sizes_disagree : ¬ ∀ (session : LiveSession) (es : List Event) (s : Live),
    Run (Step session) (opened session) es s → SizesAgree session es s := by
  intro h
  have hrun : Run (Step twoPixels) (opened twoPixels) _ _ := run_round rfl rfl [.desktopSize 1 1]
  have hframe := (h twoPixels _ _ hrun).frame 2 1 [0, 0, 0, 0] (by decide)
  exact absurd hframe.1 (by decide)

end Live

end Vnc

end RdEngine
