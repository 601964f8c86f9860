/-
RdEngine/Platform/LeaseConservation.lean

The lease of a desktop capture has one holder.

There is one lease at most, which the capture calls outstanding; a frame holds it, or
the owner does after a release that was ambiguous.  `Owned` says so of the native
layer, the owner and the leases of the frames; every call of the owner keeps it, and
is defined (`lease_conservation`).  Only an owner that is dropped while the release
stays ambiguous leaves the lease behind (`lease_left_behind`).
-/
import RdEngine.Platform.DesktopDuplication
import RdEngine.Lib.Runs

namespace RdEngine

namespace DesktopDuplication

open Cells WindowsPublisher Lts

/-! ### Who holds the lease -/

/-- What the native layer, the owner and the frames agree on; `held` are the leases
of the frames. -/
structure Owned (n : Native) (o : CaptureOwner) (held : List Nat) : Prop where
  sound : n.leases.Sound
  held : n.leases.HeldBy (held ++ o.orphanedLease.toList)
  outstanding : n.leases.live = (n.capture.bind (·.outstanding)).toList
  capture : o.capture = n.capture.isSome
  frees : n.captureFrees = if n.capture.isSome then 0 else 1

section Calls

variable {n : Native} {o : CaptureOwner} {held : List Nat} {lease : Nat} {hr : HResult}

/-- A lease that is held is the outstanding one, and the only one. -/
theorem Owned.sole (h : Owned n o held) (hmem : lease ∈ held ++ o.orphanedLease.toList) :
    ∃ c, n.capture = some c ∧ c.outstanding = some lease ∧ n.leases.live = [lease] ∧
      held ++ o.orphanedLease.toList = [lease] := by
  have hlive : lease ∈ n.leases.live := h.held.mem_iff.mp hmem
  have houtstanding := h.outstanding
  rw [houtstanding] at hlive
  cases hcapture : n.capture with
  | none =>
    rw [hcapture] at hlive
    cases hlive
  | some c =>
    rw [hcapture] at hlive houtstanding
    have hsome : c.outstanding = some lease := Option.mem_toList.mp hlive
    rw [Option.bind_some, hsome, Option.toList_some] at houtstanding
    refine ⟨c, rfl, hsome, houtstanding, ?_⟩
    have hperm := h.held
    unfold Heap.HeldBy at hperm
    rw [houtstanding] at hperm
    exact List.perm_singleton.mp hperm

/-- The release of a lease that is held: it is freed, or stays outstanding. -/
theorem Owned.rdDdRelease (h : Owned n o held) (hmem : lease ∈ held ++ o.orphanedLease.toList) :
    ∃ c, n.capture = some c ∧ c.outstanding = some lease ∧ n.rdDdRelease lease hr =
      if hr.uncertain then
        some ({ n with capture := some { c with reclamationUncertain := true } },
          .reclamationUncertain)
      else
        some ({ n with
            capture := some { c with
              outstanding := none
              reclamationUncertain := false
              accessLost := c.accessLost || hr ≠ .sOk }
            leases := { n.leases with live := [], freed := n.leases.freed ++ [lease] } }, .ok) := by
  obtain ⟨c, hcapture, houtstanding, hlive, -⟩ := h.sole hmem
  refine ⟨c, hcapture, houtstanding, ?_⟩
  have hmem' : lease ∈ n.leases.live := hlive ▸ List.mem_singleton_self _
  unfold Native.rdDdRelease
  rw [guard, if_pos hmem', hcapture]
  show (if c.outstanding ≠ some lease then _ else _) = _
  rw [if_neg (not_not.mpr houtstanding)]
  show (if hr.uncertain = true then _ else _) = _
  split
  · rfl
  · rw [Heap.free_eq hmem', hlive, List.erase_cons_head]
    rfl

theorem owned_uncertain {c : RdDdCapture} (h : Owned n o held) (hcapture : n.capture = some c) :
    Owned { n with capture := some { c with reclamationUncertain := true } } o held where
  sound := h.sound
  held := h.held
  outstanding := by
    have houtstanding := h.outstanding
    rw [hcapture] at houtstanding
    exact houtstanding
  capture := by
    rw [h.capture, hcapture]
    rfl
  frees := by
    have hfrees := h.frees
    rw [hcapture] at hfrees
    exact hfrees

theorem owned_released {c : RdDdCapture} {lost : Bool} (h : Owned n o held)
    (hcapture : n.capture = some c) (hmem : lease ∈ held ++ o.orphanedLease.toList) :
    Owned
      { n with
        capture := some { c with
          outstanding := none, reclamationUncertain := false, accessLost := lost }
        leases := { n.leases with live := [], freed := n.leases.freed ++ [lease] } }
      { o with orphanedLease := none } [] := by
  obtain ⟨-, -, -, hlive, -⟩ := h.sole hmem
  have hfree : n.leases.free lease
      = some { n.leases with live := [], freed := n.leases.freed ++ [lease] } := by
    rw [Heap.free_eq (hlive ▸ List.mem_singleton_self _), hlive, List.erase_cons_head]
  refine ⟨h.sound.free hfree, List.Perm.nil, rfl, ?_, ?_⟩
  · show o.capture = true
    rw [h.capture, hcapture]
    rfl
  · have hfrees := h.frees
    rw [hcapture] at hfrees
    exact hfrees

theorem Owned.retryOrphanedLocked (h : Owned n o held) (hr : HResult) :
    ∃ n' o' result, o.retryOrphanedLocked n hr = some (n', o', result) ∧ Owned n' o' held ∧
      o'.capture = o.capture ∧ (result = .ok () → o'.orphanedLease = none) ∧
      (o'.orphanedLease ≠ none → hr.uncertain = true) := by
  unfold CaptureOwner.retryOrphanedLocked
  cases horphan : o.orphanedLease with
  | none => exact ⟨n, o, .ok (), rfl, h, rfl, fun _ => horphan, fun hsome => absurd horphan hsome⟩
  | some lease =>
    have hmem : lease ∈ held ++ o.orphanedLease.toList := by
      rw [horphan]
      exact List.mem_append_right _ (List.mem_singleton_self _)
    obtain ⟨c, hcapture, houtstanding, hrelease⟩ := @Owned.rdDdRelease _ _ _ _ hr h hmem
    dsimp only
    rw [hrelease]
    by_cases huncertain : hr.uncertain = true
    · rw [if_pos huncertain]
      exact ⟨_, o, _, rfl, owned_uncertain h hcapture, rfl, fun hok => (by cases hok),
        fun _ => huncertain⟩
    · rw [if_neg huncertain]
      have hnil : held = [] := by
        obtain ⟨-, -, -, -, hheld⟩ := h.sole hmem
        rw [horphan] at hheld
        exact List.append_left_eq_self.mp hheld
      subst hnil
      exact ⟨_, { o with orphanedLease := none }, .ok (), rfl, owned_released h hcapture hmem, rfl,
        fun _ => rfl, fun hsome => absurd rfl hsome⟩

/-- A frame gives its lease away, for good or to the owner. -/
theorem Owned.releaseLease (h : Owned n o (lease :: held)) (hr : HResult) :
    ∃ n' o' result, o.releaseLease n lease hr = some (n', o', result) ∧ Owned n' o' held ∧
      (o'.orphanedLease ≠ none → hr.uncertain = true) := by
  have hmem : lease ∈ lease :: held ++ o.orphanedLease.toList := List.mem_cons_self
  obtain ⟨-, -, -, -, hheld⟩ := h.sole hmem
  obtain ⟨hnil, horphan⟩ := List.append_eq_nil_iff.mp (List.cons.inj hheld).2
  have hnone : o.orphanedLease = none := Option.toList_eq_nil_iff.mp horphan
  obtain ⟨c, hcapture, houtstanding, hrelease⟩ := @Owned.rdDdRelease _ _ _ _ hr h hmem
  unfold CaptureOwner.releaseLease
  rw [if_neg (by rw [hnone]; exact Bool.false_ne_true), hrelease]
  by_cases huncertain : hr.uncertain = true
  · rw [if_pos huncertain]
    refine ⟨_, { o with orphanedLease := some lease }, _, rfl, ?_, fun _ => huncertain⟩
    obtain ⟨hsound, hheldBy, hout, hcap, hfrees⟩ := owned_uncertain h hcapture
    refine ⟨hsound, ?_, hout, hcap, hfrees⟩
    rw [hheld] at hheldBy
    rw [hnil]
    exact hheldBy
  · rw [if_neg huncertain]
    subst hnil
    obtain ⟨pointer, orphan⟩ := o
    obtain rfl : orphan = none := hnone
    exact ⟨_, _, .released, rfl, owned_released h hcapture hmem, fun hsome => absurd rfl hsome⟩

/-! #### Acquiring and closing -/

theorem retryInternalReclamation_outstanding (c : RdDdCapture) (hr : HResult) :
    (c.retryInternalReclamation hr).1.outstanding = c.outstanding := by
  unfold RdDdCapture.retryInternalReclamation
  split_ifs <;> rfl

theorem abandonFrame_outstanding (c : RdDdCapture) (hr : HResult) (status : Status) :
    (c.abandonFrame hr status).1.outstanding = c.outstanding := by
  unfold RdDdCapture.abandonFrame
  split_ifs <;> rfl

theorem acquireTexture_outstanding (c : RdDdCapture) (a : Acquisition) :
    (c.acquireTexture a).1.outstanding = c.outstanding := by
  have habandon := abandonFrame_outstanding c a.releaseFrame
  unfold RdDdCapture.acquireTexture
  split
  · rfl
  split
  · rfl
  split
  · rfl
  split
  · rfl
  split
  · exact habandon _
  -- whatever the validation comes to
  extract_lets validation
  split
  · exact habandon _
  split
  · exact habandon _
  · rfl

/-- Another state of the capture, with the same lease outstanding. -/
theorem Owned.update {c c' : RdDdCapture} (h : Owned n o held) (hcapture : n.capture = some c)
    (hsame : c'.outstanding = c.outstanding) :
    Owned { n with capture := some c' } o held where
  sound := h.sound
  held := h.held
  outstanding := by
    have houtstanding := h.outstanding
    rw [hcapture] at houtstanding
    show n.leases.live = c'.outstanding.toList
    rw [hsame]
    exact houtstanding
  capture := by
    rw [h.capture, hcapture]
    rfl
  frees := by
    have hfrees := h.frees
    rw [hcapture] at hfrees
    exact hfrees

/-- A capture without a lease hands one out. -/
theorem Owned.allocated {c : RdDdCapture} (h : Owned n o held) (hcapture : n.capture = some c)
    (hnone : c.outstanding = none) :
    Owned
      { n with
        capture := some { c with outstanding := some n.leases.next }
        leases := n.leases.alloc } o (n.leases.next :: held) where
  sound := h.sound.alloc
  held := h.held.alloc
  outstanding := by
    have houtstanding := h.outstanding
    rw [hcapture, Option.bind_some, hnone] at houtstanding
    show n.leases.next :: n.leases.live = _
    rw [houtstanding]
    rfl
  capture := by
    rw [h.capture, hcapture]
    rfl
  frees := by
    have hfrees := h.frees
    rw [hcapture] at hfrees
    exact hfrees

/-- What an acquisition leaves to the frames: a lease, with a frame that names it. -/
theorem Owned.rdDdAcquire {c : RdDdCapture} (h : Owned n o held) (hcapture : n.capture = some c)
    (a : Acquisition) :
    ∃ n' result, n.rdDdAcquire a = some (n', result) ∧
      ((∃ status, result = .error status ∧ Owned n' o held) ∨
        ∃ raw lease, result = .ok raw ∧ raw.lease = some lease ∧ Owned n' o (lease :: held)) := by
  unfold Native.rdDdAcquire
  rw [hcapture, Option.bind_eq_bind, Option.bind_some]
  split
  -- the access was lost, or a lease is still outstanding
  · exact ⟨n, _, rfl, .inl ⟨_, rfl, h⟩⟩
  split
  · exact ⟨n, _, rfl, .inl ⟨_, rfl, h⟩⟩
  next hnone =>
  have hretried : ∀ retried : RdDdCapture × Status,
      retried = (if c.reclamationUncertain then c.retryInternalReclamation a.internal else (c, .ok)) →
        retried.1.outstanding = c.outstanding := by
    rintro retried rfl
    split
    · exact retryInternalReclamation_outstanding c a.internal
    · rfl
  generalize (if c.reclamationUncertain then c.retryInternalReclamation a.internal else (c, .ok))
    = retried at hretried
  obtain ⟨c', retry⟩ := retried
  have hsame : c'.outstanding = c.outstanding := hretried _ rfl
  dsimp only
  split
  · exact ⟨_, _, rfl, .inl ⟨_, rfl, h.update hcapture hsame⟩⟩
  have htexture := acquireTexture_outstanding c' a
  generalize c'.acquireTexture a = acquired at htexture
  obtain ⟨c'', status⟩ := acquired
  dsimp only at htexture ⊢
  split
  · exact ⟨_, _, rfl, .inl ⟨_, rfl, h.update hcapture (htexture.trans hsame)⟩⟩
  -- nothing was outstanding, so the new lease is the only one
  · have hnone' : c''.outstanding = none := by
      rw [htexture, hsame]
      exact Option.not_isSome_iff_eq_none.mp hnone
    have hupdated := h.update hcapture (htexture.trans hsame)
    exact ⟨_, _, rfl, .inr ⟨_, n.leases.next, rfl, rfl, hupdated.allocated rfl hnone'⟩⟩

/-- A capture is deleted only without a lease. -/
theorem Owned.rdDdClose {c : RdDdCapture} (h : Owned n o held) (hcapture : n.capture = some c)
    (internal : HResult) :
    ∃ n' status, n.rdDdClose internal = some (n', status) ∧
      if status = .ok then Owned n' { o with capture := false } held else Owned n' o held := by
  unfold Native.rdDdClose
  rw [hcapture, Option.bind_eq_bind, Option.bind_some]
  split
  · cases c.reclamationUncertain with
    | true => exact ⟨n, _, rfl, h⟩
    | false => exact ⟨n, _, rfl, h⟩
  next hnone =>
  have hretried : ∀ retried : RdDdCapture × Status,
      retried = (if c.reclamationUncertain then c.retryInternalReclamation internal else (c, .ok)) →
        retried.1.outstanding = c.outstanding := by
    rintro retried rfl
    split
    · exact retryInternalReclamation_outstanding c internal
    · rfl
  generalize (if c.reclamationUncertain then c.retryInternalReclamation internal else (c, .ok))
    = retried at hretried
  obtain ⟨c', retry⟩ := retried
  have hsame : c'.outstanding = c.outstanding := hretried _ rfl
  dsimp only
  split
  · next hretry =>
    refine ⟨_, retry, rfl, ?_⟩
    rw [if_neg (by rw [hretry]; exact Status.noConfusion)]
    exact h.update hcapture hsame
  · refine ⟨_, .ok, rfl, ?_⟩
    rw [if_pos rfl]
    -- nothing is outstanding, so no lease is left behind
    have hempty : n.leases.live = [] := by
      have houtstanding := h.outstanding
      rw [hcapture, Option.bind_some, Option.not_isSome_iff_eq_none.mp hnone] at houtstanding
      exact houtstanding
    refine ⟨h.sound, h.held, hempty, rfl, ?_⟩
    have hfrees := h.frees
    rw [hcapture] at hfrees
    show n.captureFrees + 1 = 1
    rw [hfrees]
    rfl

/-! #### Calls of the owner -/

/-- The pointer to the capture is passed on only while the capture is there. -/
theorem Owned.capture_some (h : Owned n o held) (hpointer : o.capture = true) :
    ∃ c, n.capture = some c :=
  Option.isSome_iff_exists.mp (h.capture.symm.trans hpointer)

theorem Owned.acquire (h : Owned n o held) (orphan : HResult) (a : Acquisition) :
    ∃ n' o' result, o.acquire n orphan a = some (n', o', result) ∧
      ((∃ raw lease, result = .ok (.ok raw) ∧ raw.lease = some lease ∧ Owned n' o' (lease :: held)) ∨
        (∀ raw, result ≠ .ok (.ok raw)) ∧ Owned n' o' held) := by
  obtain ⟨n', o', retried, hretry, howned, hpointer, -⟩ := h.retryOrphanedLocked orphan
  unfold CaptureOwner.acquire
  rw [hretry, Option.bind_eq_bind, Option.bind_some]
  cases retried with
  | error error => exact ⟨n', o', _, rfl, .inr ⟨fun raw hraw => (by cases hraw), howned⟩⟩
  | ok =>
    dsimp only
    split
    · next hcapture =>
      obtain ⟨c, hc⟩ := howned.capture_some hcapture
      obtain ⟨n'', result, hacquire, hresult⟩ := howned.rdDdAcquire hc a
      rw [hacquire]
      refine ⟨n'', o', .ok result, rfl, ?_⟩
      rcases hresult with ⟨status, rfl, howned'⟩ | ⟨raw, lease, rfl, hlease, howned'⟩
      · exact .inr ⟨fun raw hraw => (by cases hraw), howned'⟩
      · exact .inl ⟨raw, lease, rfl, hlease, howned'⟩
    · exact ⟨n', o', _, rfl, .inr ⟨fun raw hraw => (by cases hraw), howned⟩⟩

theorem Owned.close (h : Owned n o held) (orphan internal : HResult) :
    ∃ n' o' result, o.close n orphan internal = some (n', o', result) ∧ Owned n' o' held := by
  obtain ⟨n', o', retried, hretry, howned, hpointer, -⟩ := h.retryOrphanedLocked orphan
  unfold CaptureOwner.close
  rw [hretry, Option.bind_eq_bind, Option.bind_some]
  cases retried with
  | error error => exact ⟨n', o', _, rfl, howned⟩
  | ok =>
    dsimp only
    split
    · next hcapture =>
      obtain ⟨c, hc⟩ := howned.capture_some hcapture
      obtain ⟨n'', status, hclose, hstatus⟩ := howned.rdDdClose hc internal
      rw [hclose, Option.bind_eq_bind, Option.bind_some]
      dsimp only
      split at hstatus
      · next hok =>
        rw [if_pos hok]
        exact ⟨_, _, _, rfl, hstatus⟩
      · next hfailed =>
        rw [if_neg hfailed]
        exact ⟨_, _, _, rfl, hstatus⟩
    · exact ⟨n', o', _, rfl, howned⟩

/-- What an owner leaves behind that is dropped after all frames. -/
structure Dropped (n : Native) : Prop where
  sound : n.leases.Sound
  one : n.leases.live.length ≤ 1
  frees : n.captureFrees = if n.capture.isSome then 0 else 1
  capture : n.capture = none → n.leases.live = []

theorem Owned.outstanding_length (h : Owned n o held) : n.leases.live.length ≤ 1 := by
  rw [h.outstanding]
  cases n.capture.bind (·.outstanding) with
  | none => exact Nat.zero_le _
  | some => exact Nat.le_refl _

theorem Owned.dropped (h : Owned n o held) : Dropped n where
  sound := h.sound
  one := h.outstanding_length
  frees := h.frees
  capture hnone := by
    have houtstanding := h.outstanding
    rw [hnone] at houtstanding
    exact houtstanding

/-- A dropped owner frees its orphan, unless that stays ambiguous. -/
theorem Owned.drop (h : Owned n o []) (orphan internal : HResult) :
    ∃ n', o.drop n orphan internal = some n' ∧ Dropped n' ∧
      (n'.leases.live ≠ [] → orphan.uncertain = true) := by
  obtain ⟨n', o', retried, hretry, howned, hpointer, hok, huncertain⟩ := h.retryOrphanedLocked orphan
  unfold CaptureOwner.drop
  rw [hretry, Option.bind_eq_bind, Option.bind_some]
  -- with no frame left, what is live is the orphan
  have hlive : ∀ {n : Native} {o : CaptureOwner}, Owned n o [] → n.leases.live ≠ [] →
      o.orphanedLease ≠ none := by
    intro n o howned hne hnone
    have hheld := howned.held
    rw [hnone] at hheld
    exact hne hheld.symm.eq_nil
  cases retried with
  | error error =>
    exact ⟨n', rfl, howned.dropped, fun hne => huncertain (hlive howned hne)⟩
  | ok =>
    dsimp only
    split
    · next hcapture =>
      obtain ⟨c, hc⟩ := howned.capture_some hcapture
      obtain ⟨n'', status, hclose, hstatus⟩ := howned.rdDdClose hc internal
      rw [hclose]
      refine ⟨n'', rfl, ?_⟩
      split at hstatus
      · refine ⟨hstatus.dropped, fun hne => ?_⟩
        have hsome := hlive hstatus hne
        exact absurd (hok rfl) hsome
      · exact ⟨hstatus.dropped, fun hne => absurd (hok rfl) (hlive hstatus hne)⟩
    · exact ⟨n', rfl, howned.dropped, fun hne => absurd (hok rfl) (hlive howned hne)⟩

/-! #### Frames -/

theorem check_lease {raw : RdDdFrame} {expected : CaptureInfo} {device : Nat}
    {first : Option UInt64} {frame : NativeFrame}
    (h : NativeFrame.check raw expected device first = .ok frame) : frame.lease = raw.lease := by
  unfold NativeFrame.check at h
  simp only [bind, Except.bind, pure, Except.pure, throw, throwThe, MonadExceptOf.throw] at h
  -- every check that fails is an error
  repeat' split at h
  all_goals cases h
  next hlease => exact hlease.symm

/-- A frame is made, or its lease given back. -/
theorem Owned.fromRaw {raw : RdDdFrame} {expected : CaptureInfo} {device : Nat}
    {first : Option UInt64} (h : Owned n o (lease :: held)) (hlease : raw.lease = some lease)
    (hr : HResult) :
    ∃ n' o' result,
      NativeFrame.fromRaw o n raw expected device first hr = some (n', o', result) ∧
      ((∃ frame, result = .ok frame ∧ frame.lease = some lease ∧ Owned n' o' (lease :: held)) ∨
        (∀ frame, result ≠ .ok frame) ∧ Owned n' o' held) := by
  unfold NativeFrame.fromRaw
  cases hcheck : NativeFrame.check raw expected device first with
  | ok frame =>
    exact ⟨n, o, _, rfl, .inl ⟨frame, rfl, (check_lease hcheck).trans hlease, h⟩⟩
  | error error =>
    obtain ⟨n', o', result, hrelease, howned, -⟩ := h.releaseLease hr
    refine ⟨n', o', .error error, ?_, .inr ⟨fun frame hframe => (by cases hframe), howned⟩⟩
    unfold retainFailedFrame
    rw [hlease]
    dsimp only
    rw [hrelease]
    rfl

theorem Owned.perm {held' : List Nat} (h : Owned n o held) (hperm : held'.Perm held) :
    Owned n o held' :=
  { h with held := h.held.perm (hperm.append_right _) }

end Calls

/-! ### Runs -/

namespace System

/-- The leases of the frames. -/
def leases (s : System) : List Nat := s.frames.filterMap (·.lease)

/-- The leases that somebody holds. -/
def held (s : System) : List Nat := s.leases ++ (s.owner.bind (·.orphanedLease)).toList

/-- The invariant of a run: without the owner there is no capture and no frame. -/
def Kept (s : System) : Prop :=
  match s.owner with
  | some owner => Owned s.native owner s.leases
  | none => Dropped s.native ∧ s.capture = none ∧ s.frames = []

section

variable {s : System} {o : CaptureOwner}

theorem Kept.owned (h : s.Kept) (howner : s.owner = some o) : Owned s.native o s.leases := by
  unfold Kept at h
  rw [howner] at h
  exact h

theorem kept_owned {n : Native} {c : Option DesktopDuplicationCapture} {frames : List NativeFrame}
    (h : Owned n o (frames.filterMap (·.lease))) : Kept ⟨n, some o, c, frames⟩ := h

theorem filterMap_lease_snoc (frames : List NativeFrame) {frame : NativeFrame} {lease : Nat}
    (h : frame.lease = some lease) :
    (frames ++ [frame]).filterMap (·.lease) = frames.filterMap (·.lease) ++ [lease] := by
  rw [List.filterMap_append, List.filterMap_cons_some h, List.filterMap_nil]

theorem filterMap_lease_split {frames : List NativeFrame} {index : Nat} {frame : NativeFrame}
    (h : frames[index]? = some frame) :
    (frames.filterMap (·.lease)).Perm
      (frame.lease.toList ++ (frames.eraseIdx index).filterMap (·.lease)) := by
  obtain ⟨hlt, rfl⟩ := List.getElem?_eq_some_iff.mp h
  have hperm : (frames[index] :: frames.eraseIdx index).Perm frames :=
    List.getElem_cons_eraseIdx_perm hlt
  have := (hperm.filterMap (·.lease)).symm
  rw [List.filterMap_cons] at this
  cases hlease : frames[index].lease with
  | none =>
    rw [hlease] at this
    exact this
  | some lease =>
    rw [hlease] at this
    exact this

/-- A frame that is released leaves the leases of the others. -/
theorem releaseFrame_kept {index : Nat} {frame : NativeFrame} (h : Owned s.native o s.leases)
    (howner : s.owner = some o) (hframe : s.frames[index]? = some frame) (hr : HResult) :
    ∃ n' o', s.releaseFrame o index frame hr = some
        { s with
          native := n', owner := some o', frames := s.frames.set index { frame with lease := none } }
      ∧ Owned n' o' ((s.frames.eraseIdx index).filterMap (·.lease)) := by
  have hsplit := filterMap_lease_split hframe
  unfold releaseFrame
  cases hlease : frame.lease with
  | none =>
    rw [hlease] at hsplit
    have hset : s.frames.set index { frame with lease := none } = s.frames := by
      obtain ⟨hlt, rfl⟩ := List.getElem?_eq_some_iff.mp hframe
      have hsame : { s.frames[index] with lease := none } = s.frames[index] := by
        rw [← hlease]
      rw [hsame]
      exact List.set_getElem_self hlt
    refine ⟨s.native, o, ?_, Owned.perm h hsplit.symm⟩
    rw [hset, ← howner]
  | some lease =>
    rw [hlease] at hsplit
    obtain ⟨n', o', result, hrelease, howned, -⟩ := (Owned.perm h hsplit.symm).releaseLease hr
    refine ⟨n', o', ?_, howned⟩
    dsimp only
    rw [hrelease]
    rfl

/-- The lease of a frame that was released is no lease of the frames any more. -/
theorem set_released {frames : List NativeFrame} {index : Nat} {frame : NativeFrame}
    (h : frames[index]? = some frame) :
    ((frames.set index { frame with lease := none }).filterMap (·.lease)).Perm
      ((frames.eraseIdx index).filterMap (·.lease)) := by
  obtain ⟨hlt, -⟩ := List.getElem?_eq_some_iff.mp h
  have hset : (frames.set index { frame with lease := none })[index]?
      = some { frame with lease := none } := List.getElem?_set_self hlt
  have hsplit := filterMap_lease_split hset
  rw [List.eraseIdx_set_eq] at hsplit
  exact hsplit

/-- The owner goes with the last that shares it. -/
theorem dropOwner_kept (h : s.Kept) (orphan internal : HResult) :
    ∃ s', s.dropOwner orphan internal = some s' ∧ s'.Kept ∧
      (s.owner.isSome → s'.owner = none → s'.native.leases.live ≠ [] →
        orphan.uncertain = true) := by
  unfold dropOwner
  cases howner : s.owner with
  | none => exact ⟨s, rfl, h, fun hsome => absurd hsome Bool.false_ne_true⟩
  | some owner =>
    dsimp only
    split
    · next hlast =>
      obtain ⟨hcapture, hframes⟩ := hlast
      have howned := h.owned howner
      have hnil : s.leases = [] := by
        unfold leases
        rw [hframes]
        rfl
      rw [hnil] at howned
      obtain ⟨n', hdrop, hdropped, huncertain⟩ := howned.drop orphan internal
      rw [hdrop]
      exact ⟨_, rfl, ⟨hdropped, Option.isNone_iff_eq_none.mp hcapture, hframes⟩,
        fun _ _ => huncertain⟩
    · refine ⟨s, rfl, h, fun _ hnone => ?_⟩
      rw [howner] at hnone
      cases hnone

theorem nextTexture_kept {c : DesktopDuplicationCapture} (h : Owned s.native o s.leases)
    (orphan : HResult) (a : Acquisition) (failed : HResult) :
    ∃ s' result, s.nextTexture o c orphan a failed = some (s', result) ∧ s'.Kept ∧
      s'.owner.isSome = true := by
  obtain ⟨n', o', acquired, hacquire, hresult⟩ := h.acquire orphan a
  unfold nextTexture
  rw [hacquire, Option.bind_eq_bind, Option.bind_some]
  dsimp only
  rcases hresult with ⟨raw, lease, rfl, hlease, howned⟩ | ⟨hnone, howned⟩
  · obtain ⟨n'', o'', made, hmade, hframe⟩ := howned.fromRaw hlease failed
    dsimp only
    rw [hmade, Option.bind_eq_bind, Option.bind_some]
    rcases hframe with ⟨frame, rfl, hframe, howned'⟩ | ⟨hfailed, howned'⟩
    · refine ⟨_, _, rfl, kept_owned (howned'.perm ?_), rfl⟩
      rw [filterMap_lease_snoc _ hframe]
      exact List.perm_append_singleton lease _
    · cases made with
      | ok frame => exact absurd rfl (hfailed frame)
      | error error => exact ⟨_, _, rfl, kept_owned howned', rfl⟩
  · cases acquired with
    | error error => exact ⟨_, _, rfl, kept_owned howned, rfl⟩
    | ok result =>
      cases result with
      | ok raw => exact absurd rfl (hnone raw)
      | error status =>
        cases status with
        | wouldBlock => exact ⟨_, _, rfl, kept_owned howned, rfl⟩
        | _ => exact ⟨_, _, rfl, kept_owned howned, rfl⟩

end

end System

/-- The answer about an ambiguous lease during a call. -/
def Call.orphan : Call → HResult
  | .nextTexture orphan _ _ | .retryReclamation orphan | .close orphan _
  | .dropFrame _ _ orphan _ | .dropCapture orphan _ => orphan
  | .release _ hr => hr

namespace System

variable {s : System}

/-- A lease stays behind a dropped owner only when its release stayed ambiguous. -/
def LeavesBehind (s s' : System) (orphan : HResult) : Prop :=
  s.owner.isSome = true → s'.owner = none → s'.native.leases.live ≠ [] → orphan.uncertain = true

theorem leavesBehind_of_owner {s s' : System} {orphan : HResult} (h : s'.owner.isSome = true) :
    LeavesBehind s s' orphan := by
  intro _ hnone
  rw [hnone] at h
  cases h

theorem leavesBehind_refl (s : System) (orphan : HResult) : LeavesBehind s s orphan := by
  intro hsome hnone
  rw [hnone] at hsome
  cases hsome

/-- **A call is defined, and keeps the lease with its one holder.** -/
theorem call_kept (h : s.Kept) (call : Call) :
    ∃ s', s.call call = some s' ∧ s'.Kept ∧ LeavesBehind s s' call.orphan := by
  unfold System.call
  cases call with
  | nextTexture orphan a failed =>
    -- every call but the drops keeps the owner, so it leaves nothing behind
    dsimp only
    split
    · next owner capture howner _ =>
      obtain ⟨s', result, hcall, hkept, hsome⟩ :=
        @nextTexture_kept s owner capture (h.owned howner) orphan a failed
      exact ⟨s', by rw [hcall]; rfl, hkept, leavesBehind_of_owner hsome⟩
    · exact ⟨s, rfl, h, leavesBehind_refl s _⟩
  | retryReclamation orphan =>
    dsimp only
    split
    · next owner capture howner _ =>
      obtain ⟨n', o', result, hretry, howned, -⟩ := (h.owned howner).retryOrphanedLocked orphan
      rw [hretry]
      exact ⟨_, rfl, kept_owned howned, leavesBehind_of_owner rfl⟩
    · exact ⟨s, rfl, h, leavesBehind_refl s _⟩
  | close orphan internal =>
    dsimp only
    split
    · next owner capture howner _ =>
      obtain ⟨n', o', result, hclose, howned⟩ := (h.owned howner).close orphan internal
      rw [hclose]
      exact ⟨_, rfl, kept_owned howned, leavesBehind_of_owner rfl⟩
    · exact ⟨s, rfl, h, leavesBehind_refl s _⟩
  | release index hr =>
    dsimp only
    split
    · next owner frame howner hframe =>
      obtain ⟨n', o', hrelease, howned⟩ := releaseFrame_kept (h.owned howner) howner hframe hr
      exact ⟨_, hrelease, kept_owned (howned.perm (set_released hframe)), leavesBehind_of_owner rfl⟩
    · exact ⟨s, rfl, h, leavesBehind_refl s _⟩
  | dropFrame index hr orphan internal =>
    -- its lease goes back first; the owner goes with the last of its handles
    dsimp only
    split
    · next owner frame howner hframe =>
      obtain ⟨n', o', hrelease, howned⟩ := releaseFrame_kept (h.owned howner) howner hframe hr
      rw [hrelease, Option.bind_eq_bind, Option.bind_some]
      have hkept : Kept
          { s with
            native := n', owner := some o'
            frames := (s.frames.set index { frame with lease := none }).eraseIdx index } := by
        refine kept_owned ?_
        rw [List.eraseIdx_set_eq]
        exact howned
      obtain ⟨s', hdrop, hkept', hleaves⟩ := dropOwner_kept hkept orphan internal
      exact ⟨s', hdrop, hkept', fun _ => hleaves rfl⟩
    · exact ⟨s, rfl, h, leavesBehind_refl s _⟩
  | dropCapture orphan internal =>
    -- the frames may still hold the owner
    have hkept : Kept { s with capture := none } := by
      unfold Kept at h ⊢
      cases howner : s.owner with
      | none =>
        rw [howner] at h
        exact ⟨h.1, rfl, h.2.2⟩
      | some owner =>
        rw [howner] at h
        exact h
    obtain ⟨s', hdrop, hkept', hleaves⟩ := dropOwner_kept hkept orphan internal
    exact ⟨s', hdrop, hkept', hleaves⟩

/-- Each lease allocated is held by one, or was freed once; the capture is freed after
it, and once at most. -/
structure Conserved (s : System) : Prop where
  one : s.native.leases.live.length ≤ 1
  held : s.owner.isSome = true → s.native.leases.HeldBy s.held
  gone : s.owner = none → s.held = []
  once : s.native.leases.Sound
  frees : s.native.captureFrees = if s.native.capture.isSome then 0 else 1
  capture : s.native.capture = none → s.native.leases.live = []

theorem Kept.conserved (h : s.Kept) : s.Conserved := by
  cases howner : s.owner with
  | none =>
    unfold Kept at h
    rw [howner] at h
    obtain ⟨hdropped, -, hframes⟩ := h
    refine ⟨hdropped.one, fun hsome => ?_, fun _ => ?_, hdropped.sound, hdropped.frees,
      hdropped.capture⟩
    · rw [howner] at hsome
      cases hsome
    · unfold held leases
      rw [hframes, howner]
      rfl
  | some owner =>
    have howned := h.owned howner
    have hdropped := howned.dropped
    refine ⟨hdropped.one, fun _ => ?_, fun hnone => ?_, hdropped.sound, hdropped.frees,
      hdropped.capture⟩
    · unfold held
      rw [howner]
      exact howned.held
    · rw [howner] at hnone
      cases hnone

theorem opened_kept (capture : RdDdCapture) (info : CaptureInfo) : (opened capture info).Kept := by
  show Owned (opened capture info).native .new []
  exact ⟨Heap.empty_sound, List.Perm.nil, rfl, rfl, rfl⟩

/-- **The lease is conserved**: whatever is called, and whatever the graphics API
answers, no pointer is passed on that was freed, and each lease has one holder as long
as the owner is there.  It outlives the owner only when its release stays ambiguous to
the end. -/
theorem lease_conservation (capture : RdDdCapture) (info : CaptureInfo) (calls : List Call) :
    ∃ s, (opened capture info).run calls = some s ∧ s.Conserved ∧
      ∀ call, ∃ s', s.call call = some s' ∧ LeavesBehind s s' call.orphan := by
  obtain ⟨s, hrun, hkept⟩ := foldlM_invariant (I := Kept)
    (fun s call h => (call_kept h call).imp fun _ h => ⟨h.1, h.2.1⟩) (opened_kept capture info)
    calls
  exact ⟨s, hrun, hkept.conserved, fun call => (call_kept hkept call).imp fun _ h => ⟨h.1, h.2.2⟩⟩

/-! #### A frame that outlives its capture -/

/-- An output, its capture and a frame of it, for runs. -/
def sdrDesc : OutputDesc where
  attachedToDesktop := true
  desktopCoordinates := ⟨0, 0, 2, 2⟩
  rotation := .identity
  colorSpace := dxgiRgbFullG22P709
  bitsPerColor := 8
  minLuminance := 0
  maxLuminance := 0
  maxFullFrameLuminance := 0

def sdrCapture : RdDdCapture where
  device := 1
  modeWidth := 2
  modeHeight := 2
  adapterLuid := ⟨0, 0⟩
  desktopRect := ⟨0, 0, 2, 2⟩
  rotation := .identity
  colorDesc := sdrDesc
  qpcFrequency := 1000

def sdrInfo : CaptureInfo where
  descriptor :=
    { width := 2, height := 2, format := .b8g8r8a8Unorm, arraySlice := 0, mipLevel := 0
      adapterLuid := 0
      sourceColor :=
        { storage := DxgiFormat.b8g8r8a8Unorm.storage
          colorimetry := ⟨.bt709, .gamma22, .identity, .full⟩
          hdrStatic := none
          sourcePreserved := true }
      width_pos := by decide
      height_pos := by decide }
  qpcFrequency := 1000
  display := ⟨dxgiRgbFullG22P709, 8, 0, 0, 0⟩

def sdrAcquisition : Acquisition where
  current := sdrDesc
  lastPresentTime := 1
  texture := 2
  format := 87
  width := 2
  height := 2

/-- `E_FAIL`, which does not say what became of the frame. -/
def eFail : HResult := 0x80004005

/-- A frame is acquired, and outlives the capture; neither its own release nor the
owner's succeeds. -/
def leftBehind : List Call :=
  [.nextTexture .sOk sdrAcquisition .sOk, .dropCapture .sOk .sOk, .dropFrame 0 eFail eFail .sOk]

theorem lease_left_behind :
    ∃ s, (opened sdrCapture sdrInfo).run leftBehind = some s ∧ s.native.leases.live = [0] ∧
      s.native.leases.freed = [] ∧ ¬ s.native.leases.HeldBy s.held := by
  have hrun : (opened sdrCapture sdrInfo).run leftBehind = some _ := rfl
  refine ⟨_, hrun, rfl, rfl, fun hheld => ?_⟩
  have hlength := hheld.length_eq
  cases hlength

end System

end DesktopDuplication

end RdEngine
