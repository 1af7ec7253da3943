import ZControl.Rpc
import ZControl.Worker.Requests

/-!
# Attributes over the wire

Two commands send structures piecewise: `utimens` the seconds of two times, `statvfs` eleven
numbers of 32 bits. Here is what arrives of the structures, and which of them arrive whole.
-/

namespace ZControl

open Interaction BinaryDeserializer

/-! ## Times -/

namespace Timespec

def UTIME_NOW : Int64 := 1073741823

def UTIME_OMIT : Int64 := 1073741822

/-- The values of `tv_nsec` that `::utimensat` accepts. -/
def Valid (time : Timespec) : Prop :=
  (0 ≤ time.tvNsec ∧ time.tvNsec ≤ 999999999) ∨ time.tvNsec = UTIME_NOW ∨ time.tvNsec = UTIME_OMIT

instance (time : Timespec) : Decidable time.Valid :=
  inferInstanceAs (Decidable (_ ∨ _ ∨ _))

/-- What a time of a file becomes that was `old` before. -/
def applied (time now old : Timespec) : Timespec :=
  if time.tvNsec = UTIME_NOW then now
  else if time.tvNsec = UTIME_OMIT then old
  else time

/-- The time that the worker makes of the seconds it gets. -/
def received (time : Timespec) : Timespec := ⟨time.tvSec, 0⟩

theorem valid_received (time : Timespec) : time.received.Valid := by
  left
  show (0 : Int64) ≤ 0 ∧ (0 : Int64) ≤ 999999999
  decide

theorem applied_received (time now old : Timespec) :
    time.received.applied now old = time.received := by
  have hnow : (0 : Int64) ≠ UTIME_NOW := by decide
  have homit : (0 : Int64) ≠ UTIME_OMIT := by decide
  rw [applied, received, if_neg hnow, if_neg homit]

/-- Only a time of whole seconds is applied as the worker applies it: a time to be left alone is
set, the current time is not. -/
theorem applied_eq_received_iff (time : Timespec) :
    (∀ now old, time.applied now old = time.received) ↔ time.tvNsec = 0 := by
  constructor
  · intro h
    by_cases hnow : time.tvNsec = UTIME_NOW
    · have hset := h ⟨time.tvSec + 1, 0⟩ ⟨0, 0⟩
      rw [applied, if_pos hnow] at hset
      have hsec : time.tvSec + 1 = time.tvSec := congrArg Timespec.tvSec hset
      exact absurd hsec (by simp)
    by_cases homit : time.tvNsec = UTIME_OMIT
    · have hset := h ⟨0, 0⟩ ⟨time.tvSec + 1, 0⟩
      rw [applied, if_neg hnow, if_pos homit] at hset
      have hsec : time.tvSec + 1 = time.tvSec := congrArg Timespec.tvSec hset
      exact absurd hsec (by simp)
    · have hset := h ⟨0, 0⟩ ⟨0, 0⟩
      rw [applied, if_neg hnow, if_neg homit] at hset
      exact congrArg Timespec.tvNsec hset
  · intro h now old
    have hself : time = time.received := by
      cases time
      cases h
      rfl
    rw [hself, applied_received]
    rfl

end Timespec

/-- The times of a file that `::utimensat` sets. -/
structure FileTimes where
  atime : Timespec
  mtime : Timespec
  deriving DecidableEq, Repr

/-- The effect of `::utimensat`, called when it is `now`; `none` where it fails with `EINVAL`. -/
def FileTimes.utimensat (file : FileTimes) (now atime mtime : Timespec) : Option FileTimes :=
  if atime.Valid ∧ mtime.Valid then
    some ⟨atime.applied now file.atime, mtime.applied now file.mtime⟩
  else none

/-- Two pairs of times have the same effect on every file, whenever they are set. -/
def SameEffect (times times' : Timespec × Timespec) : Prop :=
  ∀ (file : FileTimes) (now : Timespec),
    file.utimensat now times.1 times.2 = file.utimensat now times'.1 times'.2

theorem sameEffect_received_iff (atime mtime : Timespec) :
    SameEffect (atime.received, mtime.received) (atime, mtime) ↔
      atime.tvNsec = 0 ∧ mtime.tvNsec = 0 := by
  have hset : ∀ (file : FileTimes) (now : Timespec),
      file.utimensat now atime.received mtime.received = some ⟨atime.received, mtime.received⟩ := by
    intro file now
    rw [FileTimes.utimensat, if_pos ⟨atime.valid_received, mtime.valid_received⟩,
      Timespec.applied_received, Timespec.applied_received]
  rw [← Timespec.applied_eq_received_iff, ← Timespec.applied_eq_received_iff]
  constructor
  · intro h
    have hboth : ∀ now old, atime.applied now old = atime.received ∧
        mtime.applied now old = mtime.received := by
      intro now old
      have hsame := h ⟨old, old⟩ now
      rw [hset, FileTimes.utimensat] at hsame
      split at hsame
      · injection hsame with htimes
        injection htimes with hatime hmtime
        exact ⟨hatime.symm, hmtime.symm⟩
      · cases hsame
    exact ⟨fun now old => (hboth now old).1, fun now old => (hboth now old).2⟩
  · rintro ⟨hatime, hmtime⟩ file now
    have hvalid : atime.Valid ∧ mtime.Valid := by
      rw [Timespec.applied_eq_received_iff] at hatime hmtime
      exact ⟨.inl (by rw [hatime]; decide), .inl (by rw [hmtime]; decide)⟩
    show file.utimensat now atime.received mtime.received = file.utimensat now atime mtime
    rw [hset, FileTimes.utimensat, if_pos hvalid, hatime, hmtime]

section

variable {dirsToOverride : DirsToOverride} {id : UInt32}

theorem remote_utimens {filePath : Bytes} {atime mtime : Timespec}
    (hfits : (encodingOf [.str filePath, .int64 atime.tvSec, .int64 mtime.tvSec]).length < 2 ^ 32) :
    Remote dirsToOverride id (Commander.utimens filePath atime mtime) =
      Local.status (.utimensat (cStr filePath) atime.received mtime.received) := by
  refine remote_status hfits ?_
  show FileCommandsHandler.utimens _ = _
  exact arguments_bind hfits

end

/-- The one system call of `utimens` is what it is. -/
theorem utimens_call_iff {dirsToOverride : DirsToOverride} {id : UInt32} {filePath : Bytes}
    {atime mtime : Timespec}
    (hfits : (encodingOf [.str filePath, .int64 atime.tvSec, .int64 mtime.tvSec]).length < 2 ^ 32) :
    (∃ times, Remote dirsToOverride id (Commander.utimens filePath atime mtime) =
        Local.status (.utimensat (cStr filePath) times.1 times.2) ∧
      SameEffect times (atime, mtime)) ↔
    SameEffect (atime.received, mtime.received) (atime, mtime) := by
  rw [remote_utimens hfits]
  constructor
  · rintro ⟨⟨atime', mtime'⟩, hcall, hsame⟩
    injection hcall with hop
    injection hop with hargs
    injection hargs with hpath hatime hmtime
    rw [hatime, hmtime]
    exact hsame
  · intro hsame
    exact ⟨(atime.received, mtime.received), rfl, hsame⟩

/-- **Times survive** exactly when they are whole seconds: the one system call that `utimens`
makes on the worker has the effect of a call with the original pair of times if and only if both
have no nanoseconds, which excludes the two special values. -/
theorem utimens_survives_iff (dirsToOverride : DirsToOverride) (id : UInt32) (filePath : Bytes)
    (atime mtime : Timespec)
    (hfits : (encodingOf [.str filePath, .int64 atime.tvSec, .int64 mtime.tvSec]).length < 2 ^ 32) :
    (∃ times, Remote dirsToOverride id (Commander.utimens filePath atime mtime) =
        Local.status (.utimensat (cStr filePath) times.1 times.2) ∧
      SameEffect times (atime, mtime)) ↔ atime.tvNsec = 0 ∧ mtime.tvNsec = 0 := by
  rw [utimens_call_iff hfits]
  exact sameEffect_received_iff atime mtime

/-- The modification time is to be left alone. -/
def omitMtime : Timespec × Timespec := (⟨1000, 0⟩, ⟨0, Timespec.UTIME_OMIT⟩)

/-- It is set to the beginning of the epoch. -/
theorem not_utimens_survives :
    ¬ ∀ (filePath : Bytes) (atime mtime : Timespec), atime.Valid → mtime.Valid →
      ∃ times, Remote [] 0 (Commander.utimens filePath atime mtime) =
          Local.status (.utimensat (cStr filePath) times.1 times.2) ∧
        SameEffect times (atime, mtime) := by
  intro hall
  have hsame := (utimens_call_iff (by decide)).mp
    (hall (ascii "/a") omitMtime.1 omitMtime.2 (by decide) (by decide))
  have hset := hsame ⟨⟨1, 1⟩, ⟨1, 1⟩⟩ ⟨2, 2⟩
  exact absurd hset (by decide)

theorem utimens_survives_iff_omitMtime :
    ¬ ∃ times, Remote [] 0 (Commander.utimens (ascii "/a") omitMtime.1 omitMtime.2) =
        Local.status (.utimensat (cStr (ascii "/a")) times.1 times.2) ∧
      SameEffect times omitMtime := by
  intro h
  have hboth := (utimens_survives_iff [] 0 (ascii "/a") omitMtime.1 omitMtime.2 (by decide)).mp h
  exact absurd hboth.2 (by decide)

/-! ## Statistics of a file system -/

namespace Statvfs

/-- The eleven numbers. -/
def numbers (stbuf : Statvfs) : List UInt64 :=
  [stbuf.fBsize, stbuf.fFrsize, stbuf.fBlocks, stbuf.fBfree, stbuf.fBavail, stbuf.fFiles,
    stbuf.fFfree, stbuf.fFavail, stbuf.fFsid, stbuf.fFlag, stbuf.fNamemax]

/-- The structure made of what is sent: each number cut to 32 bits. -/
def received (stbuf : Statvfs) : Statvfs where
  fBsize := stbuf.fBsize.toUInt32.toUInt64
  fFrsize := stbuf.fFrsize.toUInt32.toUInt64
  fBlocks := stbuf.fBlocks.toUInt32.toUInt64
  fBfree := stbuf.fBfree.toUInt32.toUInt64
  fBavail := stbuf.fBavail.toUInt32.toUInt64
  fFiles := stbuf.fFiles.toUInt32.toUInt64
  fFfree := stbuf.fFfree.toUInt32.toUInt64
  fFavail := stbuf.fFavail.toUInt32.toUInt64
  fFsid := stbuf.fFsid.toUInt32.toUInt64
  fFlag := stbuf.fFlag.toUInt32.toUInt64
  fNamemax := stbuf.fNamemax.toUInt32.toUInt64

theorem numbers_received (stbuf : Statvfs) :
    stbuf.received.numbers = stbuf.numbers.map fun n => n.toUInt32.toUInt64 := rfl

theorem numbers_inj {stbuf stbuf' : Statvfs} (h : stbuf.numbers = stbuf'.numbers) :
    stbuf = stbuf' := by
  cases stbuf
  cases stbuf'
  simp only [numbers, List.cons.injEq, and_true] at h
  obtain ⟨rfl, rfl, rfl, rfl, rfl, rfl, rfl, rfl, rfl, rfl, rfl⟩ := h
  rfl

theorem toUInt64_toUInt32_iff (n : UInt64) : n.toUInt32.toUInt64 = n ↔ n.toNat < 2 ^ 32 := by
  rw [← UInt64.toNat_inj, UInt32.toNat_toUInt64, UInt64.toNat_toUInt32]
  omega

theorem received_eq_iff (stbuf : Statvfs) :
    stbuf.received = stbuf ↔ ∀ n ∈ stbuf.numbers, n.toNat < 2 ^ 32 := by
  have hnumbers : stbuf.received = stbuf ↔ stbuf.received.numbers = stbuf.numbers :=
    ⟨congrArg numbers, numbers_inj⟩
  have hmap : stbuf.numbers.map (fun n => n.toUInt32.toUInt64) = stbuf.numbers ↔
      ∀ n ∈ stbuf.numbers, n.toUInt32.toUInt64 = n := by
    have h := List.map_inj_left (f := fun n => n.toUInt32.toUInt64) (g := id) (l := stbuf.numbers)
    rwa [List.map_id] at h
  rw [hnumbers, numbers_received, hmap]
  exact forall₂_congr fun n _ => toUInt64_toUInt32_iff n

end Statvfs

/-- `statvfs`, made locally: a failing call leaves the structure as it was. -/
def Local.statvfs (filePath : Bytes) : WorkerProg ((Bool × Int32) × Statvfs) := do
  let value ← sys (.statvfs filePath)
  let stbuf ←
    match value with
    | .ok stbuf => pure stbuf
    | .error _  => uninitStatvfs
  let errno ← getErrno
  pure ((value.isOk, errno), stbuf)

/-- What `statvfs` returns of the call made locally. -/
theorem remote_statvfs (dirsToOverride : DirsToOverride) (id : UInt32) {filePath : Bytes}
    (hfits : (encodingOf [.str filePath]).length < 2 ^ 32) :
    Remote dirsToOverride id (Commander.statvfs filePath) =
      Local.statvfs (cStr filePath) >>= fun x => .pure (x.1, x.2.received) := by
  have hrequest : Remote dirsToOverride id (Commander.request .statFileSystem [.str filePath] >>=
      fun m => Commander.response m (readFields [.uint8, .int32, .uint32, .uint32, .uint32,
        .uint32, .uint32, .uint32, .uint32, .uint32, .uint32, .uint32, .uint32])) = _ :=
    remote_request (Local.statvfs (cStr filePath))
      (fun x => .uint8 (if x.1.1 then 1 else 0) :: .int32 x.1.2 ::
        FileCommandsHandler.statvfsFields x.2)
      (fun x => (if x.1.1 then 1 else 0, x.1.2, x.2.fBsize.toUInt32, x.2.fFrsize.toUInt32,
        x.2.fBlocks.toUInt32, x.2.fBfree.toUInt32, x.2.fBavail.toUInt32, x.2.fFiles.toUInt32,
        x.2.fFfree.toUInt32, x.2.fFavail.toUInt32, x.2.fFsid.toUInt32, x.2.fFlag.toUInt32,
        x.2.fNamemax.toUInt32, ()))
      hfits ?_ ?_ (fun x => by simp [FileCommandsHandler.statvfsFields])
      (fun x => deserialize_encodingOf _ (by simp [FileCommandsHandler.statvfsFields]))
  · have hvalue : ∀ value : Bool, ((if value then 1 else 0 : UInt8) != 0) = value := by decide
    rw [Commander.statvfs, ← Prog.bind_assoc, Remote, Prog.translate_bind]
    rw [Remote] at hrequest
    rw [hrequest, Prog.bind_assoc]
    simp only [Prog.pure_bind, Prog.pure_eq, Prog.translate_pure, hvalue]
    rfl
  · rintro (e | stbuf)
    · exact fun _ _ => trivial
    · exact fun _ => trivial
  · show FileCommandsHandler.statvfs _ = _
    refine (arguments_bind hfits).trans ?_
    refine congrArg (Prog.perform _) (funext fun value => ?_)
    cases value <;> rfl

/-- The call on a worker where it succeeds. -/
theorem local_statvfs_runs (filePath : Bytes) (stbuf : Statvfs) :
    exec (World.step 0) .new
        (Local.statvfs (cStr filePath) >>= fun x => .pure (x.1, x.2.received))
        [⟨.sys (.statvfs (cStr filePath)), .ok stbuf⟩, ⟨.errno, 0⟩] =
      some (.ok ((true, 0), stbuf.received), .new) := by
  refine exec_perform_iff.mpr ⟨.ok stbuf, _, .new, rfl, rfl, ?_⟩
  refine exec_perform_iff.mpr ⟨(0 : Int32), _, .new, rfl, rfl, ?_⟩
  exact exec_pure_iff.mpr ⟨rfl, rfl⟩

/-- **Statistics survive** exactly when each of the numbers fits 32 bits: in all runs in which the
worker's `::statvfs` succeeds with `stbuf`, the method stores `stbuf`. -/
theorem statvfs_survives_iff (dirsToOverride : DirsToOverride) (id : UInt32) (filePath : Bytes)
    (stbuf : Statvfs) (hfits : (encodingOf [.str filePath]).length < 2 ^ 32) :
    (∀ (t : ThreadId) (w w' : World) (es : List WorkerEvent) (r : _),
      exec (World.step t) w (Remote dirsToOverride id (Commander.statvfs filePath)) es =
          some (r, w') → ⟨.sys (.statvfs (cStr filePath)), .ok stbuf⟩ ∈ es →
        ∃ errno, r = .ok ((true, errno), stbuf)) ↔
      ∀ n ∈ stbuf.numbers, n.toNat < 2 ^ 32 := by
  rw [← Statvfs.received_eq_iff, remote_statvfs dirsToOverride id hfits]
  constructor
  · intro h
    -- one run
    obtain ⟨errno, hr⟩ := h 0 .new .new _ _ (local_statvfs_runs filePath stbuf)
      (List.mem_cons_self ..)
    injection hr with hr
    exact congrArg Prod.snd hr
  · intro hwhole t w w' es r hexec hmem
    obtain ⟨value, es, w, rfl, -, hexec⟩ := exec_perform_iff.mp hexec
    rcases value with e | stbuf'
    · -- the call is not made again
      obtain ⟨_, es, w, rfl, -, hexec⟩ := exec_perform_iff.mp hexec
      obtain ⟨errno, es, w, rfl, -, hexec⟩ := exec_perform_iff.mp hexec
      obtain ⟨rfl, -⟩ := exec_pure_iff.mp hexec
      simp at hmem
    · obtain ⟨errno, es, w, rfl, -, hexec⟩ := exec_perform_iff.mp hexec
      obtain ⟨rfl, heq⟩ := exec_pure_iff.mp hexec
      obtain rfl : stbuf = stbuf' := by simpa using hmem
      injection heq with hr
      refine ⟨errno, ?_⟩
      rw [hr, hwhole]
      rfl

/-- A file system of 2³² blocks. -/
def largeVolume : Statvfs where
  fBsize := 4096
  fFrsize := 4096
  fBlocks := 4294967296
  fBfree := 1000
  fBavail := 1000
  fFiles := 100
  fFfree := 50
  fFavail := 50
  fFsid := 1
  fFlag := 0
  fNamemax := 255

/-- It is reported as one of no blocks at all. -/
theorem not_statvfs_survives :
    ¬ ∀ (filePath : Bytes) (stbuf : Statvfs) (t : ThreadId) (w w' : World)
        (es : List WorkerEvent) (r : _),
      exec (World.step t) w (Remote [] 0 (Commander.statvfs filePath)) es = some (r, w') →
        ⟨.sys (.statvfs (cStr filePath)), .ok stbuf⟩ ∈ es →
          ∃ errno, r = .ok ((true, errno), stbuf) := by
  intro hall
  have hrun : exec (World.step 0) .new (Remote [] 0 (Commander.statvfs (ascii "/a")))
      [⟨.sys (.statvfs (cStr (ascii "/a"))), .ok largeVolume⟩, ⟨.errno, 0⟩] =
        some (.ok ((true, 0), largeVolume.received), .new) := by
    rw [remote_statvfs [] 0 (by decide)]
    exact local_statvfs_runs (ascii "/a") largeVolume
  obtain ⟨errno, hr⟩ := hall _ largeVolume _ _ _ _ _ hrun (List.mem_cons_self ..)
  injection hr with hr
  have hsame : largeVolume.received = largeVolume := congrArg Prod.snd hr
  exact absurd hsame (by decide)

theorem statvfs_survives_iff_largeVolume :
    ¬ ∀ (t : ThreadId) (w w' : World) (es : List WorkerEvent) (r : _),
      exec (World.step t) w (Remote [] 0 (Commander.statvfs (ascii "/a"))) es = some (r, w') →
        ⟨.sys (.statvfs (cStr (ascii "/a"))), .ok largeVolume⟩ ∈ es →
          ∃ errno, r = .ok ((true, errno), largeVolume) := by
  intro h
  have hfits := (statvfs_survives_iff [] 0 (ascii "/a") largeVolume (by decide)).mp h
  exact absurd (hfits 4294967296 (by decide)) (by decide)

end ZControl
