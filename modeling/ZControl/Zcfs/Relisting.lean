import ZControl.Zcfs.Listing

/-!
# Listing a directory again

The position of a directory stream is kept by the worker between the calls of `zcfs_readdir`, and
nothing sets it back. An overridden directory has no position: every request starts at its first
entry. So a further call on a handle lists the directory only where it is overridden or where the
earlier calls have read nothing.
-/

namespace ZControl

open Batches Interaction

section

variable {dirsToOverride : DirsToOverride} {thread : UInt32 → ThreadId}
  {full : List (Bytes × FillStat) → Bool}

/-! ## Overridden directories -/

/-- The id `fd` stands for a directory of the table. -/
structure Overrides (s : Mount) (fd : Int32) (dirents : List Dirent) : Prop where
  notFailed : fd ≠ -1
  handle : s.world.overriddenFds.lookup fd = some dirents
  table : ∃ path, (path, dirents) ∈ DirCommandsHandler.androidDirsToOverride

theorem Overrides.valid {s : Mount} {fd : Int32} {dirents : List Dirent}
    (hs : Overrides s fd dirents) : (∀ d ∈ dirents, ValidName d) ∧ dirents.length < 2048 := by
  obtain ⟨path, htable⟩ := hs.table
  simp only [DirCommandsHandler.androidDirsToOverride, List.mem_cons, Prod.mk.injEq,
    List.not_mem_nil, or_false] at htable
  rcases htable with ⟨-, rfl⟩ | ⟨-, rfl⟩ | ⟨-, rfl⟩ <;>
    simp [ValidName, NulFree, ascii]

/-- A request on a directory of a table, whatever is in it. -/
theorem request_table {s s' : Mount} {conn : ConnId} {fd : Int32} {dirents : List Dirent}
    {n : UInt32} {es : List MountEvent} {r : Except Fault (List DirEntry × Int32)}
    (hlookup : s.world.overriddenFds.lookup fd = some dirents)
    (hvalid : ∀ d ∈ dirents, ValidName d)
    (hfits : (encodeDirEntries ((dirents.take n.toNat).map entryOf)).length + 4 < 2 ^ 32)
    (h : exec (Mount.step full) s
      (Mounted dirsToOverride thread (Zcfs.onCommander conn (Commander.readdir fd n))) es =
        some (r, s')) :
    failures es = [] ∧ r = .ok ((dirents.take n.toNat).map entryOf, 0) ∧
      s' = { s with nextCommandId := s.nextCommandId + 1 } := by
  rw [mounted_readdir] at h
  obtain ⟨id, es₁, s₁, rfl, hid, h₁⟩ := exec_perform_iff.mp h
  simp only [Mount.step, Option.ite_none_right_eq_some, Option.some.injEq] at hid
  obtain ⟨rfl, rfl⟩ := hid
  simp only [doCommand_readdir, Prog.call_bind, Prog.translate_perform, Prog.perform_bind,
    exec_perform_iff] at h₁
  obtain ⟨overridden, es₂, s₂, rfl, hfind, h₂⟩ := h₁
  obtain ⟨rfl, rfl⟩ := Mount.step_find hfind
  have hloop := DirCommandsHandler.overriddenLoop_encodes dirents n.toNat BinarySerializer.new
    (fun d hd => (hvalid d hd).1) BinarySerializer.synced_new (by
      show 0 + (encodeDirEntries ((dirents.take n.toNat).map entryOf)).length < 2 ^ 32
      omega)
  simp only [hlookup, hloop, Prog.lift_ok, Prog.pure_bind] at h₂
  rw [mounted_answer _ _ _ hfits] at h₂
  obtain ⟨rfl, heq⟩ := exec_pure_iff.mp h₂
  cases heq
  exact ⟨rfl, rfl, rfl⟩

variable (dirsToOverride thread) in
/-- A request on a directory of a table can be handled. -/
theorem request_table_runs (full : List (Bytes × FillStat) → Bool) (conn : ConnId) {fd : Int32}
    (n : UInt32) {s : Mount} {listing : List Dirent}
    (hlookup : s.world.overriddenFds.lookup fd = some listing)
    (hvalid : ∀ d ∈ listing, ValidName d)
    (hfits : (encodeDirEntries ((listing.take n.toNat).map entryOf)).length + 4 < 2 ^ 32) :
    ∃ es, exec (Mount.step full) s (Mounted dirsToOverride thread
        (Zcfs.onCommander conn (Commander.readdir fd n))) es =
      some (.ok ((listing.take n.toNat).map entryOf, 0),
        { s with nextCommandId := s.nextCommandId + 1 }) := by
  have hloop := DirCommandsHandler.overriddenLoop_encodes listing n.toNat BinarySerializer.new
    (fun d hd => (hvalid d hd).1) BinarySerializer.synced_new (by
      show 0 + (encodeDirEntries ((listing.take n.toNat).map entryOf)).length < 2 ^ 32
      omega)
  have hfind : Mount.step full { s with nextCommandId := s.nextCommandId + 1 }
      (.worker (thread s.nextCommandId) (.overridden (.find fd))) (some listing) =
        some { s with nextCommandId := s.nextCommandId + 1 } := by
    simp [Mount.step, World.step, World.overriddenStep, hlookup]
  refine ⟨[⟨.nextCommandId, s.nextCommandId⟩,
    ⟨.worker (thread s.nextCommandId) (.overridden (.find fd)), some listing⟩], ?_⟩
  rw [mounted_readdir]
  refine exec_perform_iff.mpr ⟨_, _, _, rfl, if_pos rfl, ?_⟩
  simp only [doCommand_readdir, Prog.call_bind, Prog.translate_perform, Prog.perform_bind]
  refine exec_perform_iff.mpr ⟨_, _, _, rfl, hfind, ?_⟩
  simp only [hloop, Prog.lift_ok, Prog.pure_bind]
  rw [mounted_answer _ _ _ hfits]
  exact exec_pure_iff.mpr ⟨rfl, rfl⟩

/-- The loop ends after one request, since the table is short. -/
theorem readdirLoop_overridden {conn : ConnId} {fd : Int32} {dirents : List Dirent} {n : Nat}
    {s s' : Mount} {es : List MountEvent} {r : Except Fault (Option Int32)}
    (hs : Overrides s fd dirents)
    (h : exec (Mount.step full) s
      (Mounted dirsToOverride thread (Zcfs.readdirLoop conn (Zcfs.fhOf fd) (n + 1))) es =
        some (r, s')) :
    r = .ok (some 0) ∧
      ∃ id, s' = { s with
        nextCommandId := id
        filled := s.filled ++ passed full s.filled ((dirents.map entryOf).map fillOf) } := by
  obtain ⟨hvalid, hshort⟩ := hs.valid
  obtain ⟨r₁, s₁, es₁, es₂, rfl, hrequest, hrest⟩ := readdirLoop_turn h
  rw [Zcfs.fdOf_fhOf] at hrequest
  obtain ⟨-, rfl, rfl⟩ := request_table hs.handle hvalid (page_fits hvalid) hrequest
  have hmax : Zcfs.MaxDirsReadPerCall.toNat = 2048 := rfl
  rw [hmax] at hrest
  simp only [ne_eq, not_true_eq_false, if_false] at hrest
  rw [List.take_of_length_le (by omega)] at hrest
  obtain ⟨r₂, s₂, es₃, es₄, rfl, hfill, hloop⟩ := exec_bind hrest
  obtain ⟨-, -, -, rfl, rfl⟩ := fillEntries_exec hfill
  rw [List.length_map, if_neg (by omega)] at hloop
  obtain ⟨rfl, heq⟩ := exec_pure_iff.mp hloop
  cases heq
  exact ⟨rfl, _, rfl⟩

/-- What a call of `zcfs_readdir` that returns does on an overridden directory. -/
theorem readdir_overridden {path : Bytes} {fd v : Int32} {dirents : List Dirent} {n : Nat}
    {s s' : Mount} {es : List MountEvent} (hpath : (Zcfs.splitPath path).1 = s.client)
    (hs : Overrides s fd dirents)
    (h : exec (Mount.step fun _ => false) s
      (Mounted dirsToOverride thread (Zcfs.readdir n path (Zcfs.fhOf fd))) es =
        some (.ok (some v), s')) :
    ∃ id, s' = { s with
      nextCommandId := id
      filled := s.filled ++ (dirents.map entryOf).map fillOf } := by
  rw [Zcfs.readdir, if_neg (Zcfs.fhOf_ne hs.notFailed)] at h
  obtain ⟨es₁, es₂, r₁, s₁, rfl, hloop, hend⟩ := withCommander_exec hpath h
  cases n with
  | zero =>
      obtain ⟨rfl, heq⟩ := exec_pure_iff.mp hloop
      cases heq
      obtain ⟨-, hnone, -⟩ := hend none rfl
      cases hnone
  | succ n =>
      obtain ⟨rfl, id, rfl⟩ := readdirLoop_overridden hs hloop
      obtain ⟨-, -, rfl⟩ := hend _ rfl
      rw [passed_never]
      exact ⟨id, rfl⟩

variable (dirsToOverride thread) in
/-- An overridden directory can be listed. -/
theorem readdir_overridden_runs {path : Bytes} {fd : Int32} {dirents : List Dirent} (n : Nat)
    {s : Mount} (hpath : (Zcfs.splitPath path).1 = s.client) (hs : Overrides s fd dirents) :
    ∃ es s', exec (Mount.step fun _ => false) s
        (Mounted dirsToOverride thread (Zcfs.readdir (n + 1) path (Zcfs.fhOf fd))) es =
          some (.ok (some 0), s') ∧ failures es = [] := by
  obtain ⟨hvalid, hshort⟩ := hs.valid
  obtain ⟨es, hrequest⟩ := request_table_runs dirsToOverride thread (fun _ => false) 0
    Zcfs.MaxDirsReadPerCall hs.handle hvalid (page_fits hvalid)
  obtain ⟨hfailures, -⟩ := request_table hs.handle hvalid (page_fits hvalid) hrequest
  obtain ⟨es₂, s', hfill⟩ := fillEntries_runs dirsToOverride thread (fun _ => false)
    ((dirents.take Zcfs.MaxDirsReadPerCall.toNat).map entryOf)
    { s with nextCommandId := s.nextCommandId + 1 }
  obtain ⟨-, hfillFailures, -⟩ := fillEntries_exec hfill
  have hlast : ((dirents.take Zcfs.MaxDirsReadPerCall.toNat).map entryOf).length ≠
      Zcfs.MaxDirsReadPerCall.toNat := by
    have hmax : Zcfs.MaxDirsReadPerCall.toNat = 2048 := rfl
    rw [List.length_map, List.length_take]
    omega
  have hloop : exec (Mount.step fun _ => false) s (Mounted dirsToOverride thread
      (Zcfs.readdirLoop 0 (Zcfs.fhOf fd) (n + 1))) (es ++ (es₂ ++ [])) =
        some (.ok (some 0), s') := by
    rw [Zcfs.readdirLoop, Mounted, Prog.translate_bind, Zcfs.fdOf_fhOf]
    refine exec_bind_ok hrequest ?_
    simp only [ne_eq, not_true_eq_false, if_false, Prog.translate_bind]
    refine exec_bind_ok hfill ?_
    rw [if_neg hlast]
    exact exec_pure_iff.mpr ⟨rfl, rfl⟩
  refine ⟨_, s', readdir_of_loop hpath hs.notFailed hloop, ?_⟩
  show failures (es ++ (es₂ ++ [])) = []
  simp [hfailures, hfillFailures]

/-! ## Calls one after another -/

/-- `k` calls of `zcfs_readdir` on one handle, one after another, all of which return. -/
inductive Calls (dirsToOverride : DirsToOverride) (thread : UInt32 → ThreadId) (path : Bytes)
    (fh : UInt64) : Nat → Mount → List MountEvent → Mount → Prop where
  | none (s : Mount) : Calls dirsToOverride thread path fh 0 s [] s
  | more {k n : Nat} {s s₁ s₂ : Mount} {es es' : List MountEvent} {v : Int32}
      (before : Calls dirsToOverride thread path fh k s es s₁)
      (last : exec (Mount.step fun _ => false) s₁
        (Mounted dirsToOverride thread (Zcfs.readdir n path fh)) es' = some (.ok (some v), s₂)) :
      Calls dirsToOverride thread path fh (k + 1) s (es ++ es') s₂

/-- What calls leave of a stream: every entry that was read is gone, and calls of which none has
failed leave nothing. -/
theorem calls_streams {path : Bytes} {fd : Int32} {dir k : Nat} {s s' : Mount}
    {es : List MountEvent} (hcalls : Calls dirsToOverride thread path (Zcfs.fhOf fd) k s es s')
    (hpath : (Zcfs.splitPath path).1 = s.client) (hs : Streams s fd dir) :
    s'.client = s.client ∧ Streams s' fd dir ∧
      ∃ m, s'.unread (some dir) = (s.unread (some dir)).drop m ∧
        entriesRead es = min m (s.unread (some dir)).length ∧
        (failures es = [] → k ≠ 0 → (s.unread (some dir)).length ≤ m) := by
  induction hcalls with
  | none s => exact ⟨rfl, hs, 0, rfl, by simp, by simp⟩
  | @more k n s s₁ s₂ es es' v before last ih =>
      obtain ⟨hclient, hs₁, m, hunread, hcount, -⟩ := ih hpath hs
      obtain ⟨m', f, id, filled, v', rfl, hcount', hv, hends⟩ :=
        readdir_streams (hpath.trans hclient.symm) hs₁ last
      obtain rfl := Except.ok.inj hv
      refine ⟨hclient, hs₁.after _ _ _ _, m + m', ?_, ?_, ?_⟩
      · rw [Mount.afterListing_unread, hunread, List.drop_drop]
      · rw [hunread, List.length_drop] at hcount'
        rw [entriesRead_append, hcount, hcount']
        omega
      · intro hnofail _
        cases hends with
        | done _ _ hread _ =>
            rw [hunread, List.length_drop] at hread
            omega
        | failed e _ hone => simp [hone] at hnofail

/-- Calls do not change an overridden directory. -/
theorem calls_overridden {path : Bytes} {fd : Int32} {dirents : List Dirent} {k : Nat}
    {s s' : Mount} {es : List MountEvent}
    (hcalls : Calls dirsToOverride thread path (Zcfs.fhOf fd) k s es s')
    (hpath : (Zcfs.splitPath path).1 = s.client) (hs : Overrides s fd dirents) :
    s'.client = s.client ∧ Overrides s' fd dirents := by
  induction hcalls with
  | none s => exact ⟨rfl, hs⟩
  | more before last ih =>
      obtain ⟨hclient, hs₁⟩ := ih hpath hs
      obtain ⟨id, rfl⟩ := readdir_overridden (hpath.trans hclient.symm) hs₁ last
      exact ⟨hclient, ⟨hs₁.notFailed, hs₁.handle, hs₁.table⟩⟩

variable (dirsToOverride thread) in
/-- A stream can be listed to its end, and is empty then. -/
theorem readdir_empties {path : Bytes} {fd : Int32} {dir n : Nat} {s : Mount}
    (hpath : (Zcfs.splitPath path).1 = s.client) (hs : Streams s fd dir)
    (hturns : (s.unread (some dir)).length / 2048 < n) :
    ∃ es s', exec (Mount.step fun _ => false) s
        (Mounted dirsToOverride thread (Zcfs.readdir n path (Zcfs.fhOf fd))) es =
          some (.ok (some 0), s') ∧
      failures es = [] ∧ s'.client = s.client ∧ Streams s' fd dir ∧ s'.unread (some dir) = [] ∧
      s'.filled = s.filled ++ (s.unread (some dir)).map fillOfDirent := by
  obtain ⟨es, r, s', hrun, hnofail⟩ := readdir_runs dirsToOverride thread _ n hpath hs
  obtain ⟨m, f, id, filled, v, rfl, -, hv, hends⟩ := readdir_streams hpath hs hrun
  obtain rfl := Except.ok.inj hv
  cases hends with
  | turnsUsedUp _ hmore => omega
  | failed e _ hone => simp [hone] at hnofail
  | done _ _ hread hfilled =>
      refine ⟨es, _, hrun, hnofail, rfl, hs.after _ _ _ _, ?_, ?_⟩
      · rw [Mount.afterListing_unread, List.drop_of_length_le hread]
      · rw [← map_fillOf hs.valid]
        exact hfilled

/-- The id `fd` stands for a directory with the entries `listing`, of which none has been read. -/
inductive Lists (s : Mount) (fd : Int32) (listing : List Dirent) : Prop where
  | stream (dir : Nat) (hs : Streams s fd dir) (hunread : s.unread (some dir) = listing)
  | overridden (hs : Overrides s fd listing)

def IsOverridden (s : Mount) (fd : Int32) : Prop := (s.world.overriddenFds.lookup fd).isSome

/-- **A further listing is complete only where nothing has been read.** After any calls on a handle
that return, whatever they return, a further one without a failure passes the whole directory to
`filler` if and only if the directory is overridden or the earlier calls have read no entry. Earlier
calls of which none fails have read all there are. -/
theorem readdir_again_iff {path : Bytes} {fd v : Int32} {listing : List Dirent} {k n : Nat}
    {s s₁ s₂ : Mount} {es es' : List MountEvent} (hpath : (Zcfs.splitPath path).1 = s.client)
    (hlists : Lists s fd listing)
    (hcalls : Calls dirsToOverride thread path (Zcfs.fhOf fd) k s es s₁)
    (h : exec (Mount.step fun _ => false) s₁
      (Mounted dirsToOverride thread (Zcfs.readdir n path (Zcfs.fhOf fd))) es' =
        some (.ok (some v), s₂))
    (hnofail : failures es' = []) :
    (s₂.filled = s₁.filled ++ listing.map fillOfDirent ↔
      IsOverridden s fd ∨ entriesRead es = 0) ∧
    (failures es = [] → k ≠ 0 → ¬ IsOverridden s fd → entriesRead es = listing.length) := by
  cases hlists with
  | stream dir hs hunread =>
      subst hunread
      obtain ⟨hclient, hs₁, m, hunread, hcount, hall⟩ := calls_streams hcalls hpath hs
      obtain ⟨m', f, id, filled, v', rfl, -, hv, hends⟩ :=
        readdir_streams (hpath.trans hclient.symm) hs₁ h
      obtain rfl := Except.ok.inj hv
      have hnot : ¬ IsOverridden s fd := by simp [IsOverridden, hs.notOverridden]
      refine ⟨?_, fun hnofail₁ hk _ => by have := hall hnofail₁ hk; omega⟩
      cases hends with
      | failed e _ hone => simp [hone] at hnofail
      | done _ _ _ hfilled =>
          show filled = _ ↔ _
          rw [hfilled, map_fillOf hs₁.valid, hunread, List.append_cancel_left_eq, hcount]
          constructor
          · -- a proper rest of the directory is shorter than the directory
            intro heq
            have hlen := congrArg List.length heq
            rw [List.length_map, List.length_map, List.length_drop] at hlen
            right
            omega
          · rintro (hover | hnothing)
            · exact absurd hover hnot
            · have hm : (s.unread (some dir)).drop m = s.unread (some dir) := by
                rcases Nat.min_eq_zero_iff.mp hnothing with rfl | hnil
                · exact List.drop_zero
                · rw [List.length_eq_zero_iff.mp hnil, List.drop_nil]
              rw [hm]
  | overridden hs =>
      obtain ⟨hclient, hs₁⟩ := calls_overridden hcalls hpath hs
      obtain ⟨id, rfl⟩ := readdir_overridden (hpath.trans hclient.symm) hs₁ h
      have hover : IsOverridden s fd := by simp [IsOverridden, hs.handle]
      refine ⟨iff_of_true ?_ (.inl hover), fun _ _ hnot => absurd hover hnot⟩
      show s₁.filled ++ _ = _
      rw [map_fillOf hs.valid.1]

end

/-- The root directory of an Android device. -/
def androidRootEntries : List Dirent :=
  [⟨0, DirCommandsHandler.DT_DIR, ascii "sdcard"⟩, ⟨0, DirCommandsHandler.DT_DIR, ascii "storage"⟩]

/-- It has been opened as 0. -/
def Mount.androidRoot : Mount where
  client := ascii "w"
  nextCommandId := 0
  world :=
    { World.new with overriddenFds := AList.insert 0 androidRootEntries ∅ }
  unread := fun _ => []
  filled := []

theorem valid_androidRootEntries : ∀ d ∈ androidRootEntries, ValidName d := by
  simp [androidRootEntries, ValidName, NulFree, ascii]

theorem overrides_androidRoot : Overrides .androidRoot 0 androidRootEntries where
  notFailed := by decide
  handle := rfl
  table := ⟨ascii "/", List.mem_cons_self⟩

/-- The root directory is listed a second time, in full. -/
theorem readdir_again_iff_androidRoot :
    ∃ es s₁ es' s₂, Calls [] (fun _ => 0) (ascii "/w") (Zcfs.fhOf 0) 1 .androidRoot es s₁ ∧
      exec (Mount.step fun _ => false) s₁
        (Mounted [] (fun _ => 0) (Zcfs.readdir 1 (ascii "/w") (Zcfs.fhOf 0))) es' =
          some (.ok (some 0), s₂) ∧
      s₂.filled =
        s₁.filled ++ [(ascii "sdcard", ⟨0o40000, 0⟩), (ascii "storage", ⟨0o40000, 0⟩)] := by
  have hpath : (Zcfs.splitPath (ascii "/w")).1 = Mount.androidRoot.client := by decide
  obtain ⟨es, s₁, hfirst, -⟩ :=
    readdir_overridden_runs [] (fun _ => 0) 0 hpath overrides_androidRoot
  have hcalls : Calls [] (fun _ => 0) (ascii "/w") (Zcfs.fhOf 0) 1 .androidRoot es s₁ :=
    .more (.none _) hfirst
  obtain ⟨hclient, hs₁⟩ := calls_overridden hcalls hpath overrides_androidRoot
  obtain ⟨es', s₂, hsecond, hnofail⟩ :=
    readdir_overridden_runs [] (fun _ => 0) 0 (hpath.trans hclient.symm) hs₁
  have hiff := (readdir_again_iff hpath (.overridden overrides_androidRoot) hcalls hsecond
    hnofail).1
  exact ⟨es, s₁, es', s₂, hcalls, hsecond, hiff.mpr (.inl rfl)⟩

/-- The second listing of a directory with one entry is empty. -/
theorem not_readdir_again :
    ∃ es s₁ es' s₂, Calls [] (fun _ => 0) (ascii "/w/d") (Zcfs.fhOf 0) 1 .oneEntry es s₁ ∧
      failures es = [] ∧ s₁.filled = [(ascii "a", ⟨0o40000, 0⟩)] ∧
      exec (Mount.step fun _ => false) s₁
        (Mounted [] (fun _ => 0) (Zcfs.readdir 1 (ascii "/w/d") (Zcfs.fhOf 0))) es' =
          some (.ok (some 0), s₂) ∧
      failures es' = [] ∧ s₂.filled = s₁.filled := by
  obtain ⟨es, s₁, hrun, hnofail, hclient, hs₁, hempty, hfilled⟩ := readdir_empties [] (fun _ => 0)
    (show (Zcfs.splitPath (ascii "/w/d")).1 = _ from by decide) streams_oneEntry
    (show 1 / 2048 < 1 by decide)
  obtain ⟨es', s₂, hrun', hnofail', -, -, -, hfilled'⟩ := readdir_empties [] (fun _ => 0)
    (show (Zcfs.splitPath (ascii "/w/d")).1 = s₁.client from hclient.symm ▸ by decide) hs₁
    (show _ < 1 by rw [hempty]; decide)
  refine ⟨es, s₁, es', s₂, .more (.none _) hrun, hnofail, hfilled, hrun', hnofail', ?_⟩
  rw [hfilled', hempty]
  exact List.append_nil _

end ZControl
