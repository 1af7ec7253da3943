import ZControl.Zcfs.Relisting

/-!
# A full buffer

When `filler` says that its buffer is full, `zcfs_readdir` leaves the loop over the entries of one
answer, and nothing else: whether another request follows depends on the size of the answer alone.
-/

namespace ZControl

open Batches Interaction

section

variable {dirsToOverride : DirsToOverride} {thread : UInt32 → ThreadId}
  {full : List (Bytes × FillStat) → Bool}

/-- **The calls of `filler`** that a loop over requests on a stream makes are those of a listing
offered in batches of 2048, as many as requests have not failed. -/
theorem readdirLoop_offers {conn : ConnId} {fd : Int32} {dir n : Nat} {s s' : Mount}
    {es : List MountEvent} {r : Except Fault (Option Int32)}
    (h : exec (Mount.step full) s
      (Mounted dirsToOverride thread (Zcfs.readdirLoop conn (Zcfs.fhOf fd) n)) es = some (r, s'))
    (hs : Streams s fd dir) :
    ∃ v m, r = .ok v ∧ (failures es = [] → m = n) ∧
      s'.filled = s.filled ++
        inBatches full 2048 m s.filled ((s.unread (some dir)).map fillOfDirent) := by
  induction n generalizing s es with
  | zero =>
      obtain ⟨rfl, heq⟩ := exec_pure_iff.mp h
      cases heq
      exact ⟨none, 0, rfl, fun _ => rfl, (List.append_nil _).symm⟩
  | succ n ih =>
      obtain ⟨r₁, s₁, es₁, es₂, rfl, hrequest, hrest⟩ := readdirLoop_turn h
      rw [Zcfs.fdOf_fhOf] at hrequest
      obtain ⟨-, m, f, rfl, -, hanswer⟩ :=
        request_streams hs (by decide) (page_fits hs.valid) hrequest
      have hmax : Zcfs.MaxDirsReadPerCall.toNat = 2048 := rfl
      rcases hanswer with ⟨hnone, rfl, rfl⟩ | ⟨e, entries, he, hone, rfl⟩
      · rw [hmax] at hrest
        simp only [ne_eq, not_true_eq_false, if_false] at hrest
        obtain ⟨r₂, s₂, es₃, es₄, rfl, hfill, hloop⟩ := exec_bind hrest
        obtain ⟨-, hfillFailures, -, rfl, rfl⟩ := fillEntries_exec hfill
        rw [List.length_map, List.length_take] at hloop
        have hfills : (((s.unread (some dir)).take 2048).map entryOf).map fillOf =
            ((s.unread (some dir)).map fillOfDirent).take 2048 := by
          rw [map_fillOf fun d hd => hs.valid d (List.mem_of_mem_take hd), List.map_take]
        have hnow : (s.afterListing (some dir) 2048 f (s.nextCommandId + 1) s.filled).filled =
            s.filled := rfl
        rw [hfills, hnow] at hloop
        by_cases hfull : 2048 ≤ (s.unread (some dir)).length
        · -- a whole batch, and on with the rest
          rw [if_pos (Nat.min_eq_left hfull)] at hloop
          obtain ⟨v, m, rfl, hm, hoffers⟩ := ih hloop (hs.after 2048 f _ _)
          refine ⟨v, m + 1, rfl, ?_, ?_⟩
          · intro hnofail
            simp only [failures_append, List.append_eq_nil_iff] at hnofail
            rw [hm hnofail.2.2]
          · have hunread : ({ s.afterListing (some dir) 2048 f (s.nextCommandId + 1) s.filled with
                filled := s.filled ++ passed full s.filled
                  (((s.unread (some dir)).map fillOfDirent).take 2048) } : Mount).unread
                    (some dir) =
                (s.unread (some dir)).drop 2048 := Mount.afterListing_unread ..
            rw [hoffers, hunread, inBatches, List.length_map, if_pos hfull, List.map_drop,
              List.append_assoc]
        · -- the last batch
          rw [if_neg (by omega)] at hloop
          obtain ⟨rfl, heq⟩ := exec_pure_iff.mp hloop
          cases heq
          refine ⟨some 0, n + 1, rfl, fun _ => rfl, ?_⟩
          rw [inBatches, List.length_map, if_neg hfull, List.append_nil]
      · -- the request has failed
        have hne : e ≠ 0 := by
          rintro rfl
          exact absurd he (by decide)
        simp only [ne_eq, hne, not_false_eq_true, if_true] at hrest
        obtain ⟨rfl, heq⟩ := exec_pure_iff.mp hrest
        cases heq
        refine ⟨some (-e), 0, rfl, ?_, (List.append_nil _).symm⟩
        intro hnofail
        rw [List.append_nil, hone] at hnofail
        cases hnofail

/-- The same for a call of `zcfs_readdir`. -/
theorem readdir_offers {path : Bytes} {fd : Int32} {listing : List Dirent} {n : Nat} {s s' : Mount}
    {es : List MountEvent} {r : Except Fault (Option Int32)}
    (hpath : (Zcfs.splitPath path).1 = s.client) (hlists : Lists s fd listing)
    (h : exec (Mount.step full) s
      (Mounted dirsToOverride thread (Zcfs.readdir n path (Zcfs.fhOf fd))) es = some (r, s')) :
    ∃ m, (failures es = [] → ¬ IsOverridden s fd → m = n) ∧
      s'.filled = s.filled ++ inBatches full 2048 m s.filled (listing.map fillOfDirent) := by
  cases hlists with
  | stream dir hs hunread =>
      subst hunread
      rw [Zcfs.readdir, if_neg (Zcfs.fhOf_ne hs.notFailed)] at h
      obtain ⟨es₁, es₂, r₁, s₁, rfl, hloop, hend⟩ := withCommander_exec hpath h
      obtain ⟨v, m, rfl, hm, hoffers⟩ := readdirLoop_offers hloop hs
      obtain ⟨rfl, rfl, rfl⟩ := hend v rfl
      rw [List.append_nil]
      exact ⟨m, fun hnofail _ => hm hnofail, hoffers⟩
  | overridden hs =>
      have hover : IsOverridden s fd := by simp [IsOverridden, hs.handle]
      obtain ⟨hvalid, hshort⟩ := hs.valid
      rw [Zcfs.readdir, if_neg (Zcfs.fhOf_ne hs.notFailed)] at h
      obtain ⟨es₁, es₂, r₁, s₁, rfl, hloop, hend⟩ := withCommander_exec hpath h
      cases n with
      | zero =>
          obtain ⟨rfl, heq⟩ := exec_pure_iff.mp hloop
          cases heq
          obtain ⟨rfl, -, rfl⟩ := hend none rfl
          exact ⟨0, fun _ hnot => absurd hover hnot, (List.append_nil _).symm⟩
      | succ n =>
          obtain ⟨rfl, id, rfl⟩ := readdirLoop_overridden hs hloop
          obtain ⟨rfl, -, rfl⟩ := hend _ rfl
          refine ⟨1, fun _ hnot => absurd hover hnot, ?_⟩
          have hlast : ¬ 2048 ≤ (listing.map fillOfDirent).length := by
            rw [List.length_map]
            omega
          rw [inBatches, if_neg hlast, List.append_nil, map_fillOf hvalid,
            List.take_of_length_le (by omega)]

variable (dirsToOverride thread full) in
/-- Whatever a call of `zcfs_readdir` does, it passes a first part of the listing to `filler`, and
does not call it again once the buffer is full. -/
def StopsWhenFull (s : Mount) (path : Bytes) (fd : Int32) (listing : List Dirent) : Prop :=
  ∀ n es r s', exec (Mount.step full) s
      (Mounted dirsToOverride thread (Zcfs.readdir n path (Zcfs.fhOf fd))) es = some (r, s') →
    ∃ calls, s'.filled = s.filled ++ calls ∧
      Stops full s.filled calls (listing.map fillOfDirent)

/-- It depends on the batches alone. -/
theorem stopsWhenFull_iff_inBatches {s : Mount} {path : Bytes} {fd : Int32}
    {listing : List Dirent} (hpath : (Zcfs.splitPath path).1 = s.client)
    (hlists : Lists s fd listing) :
    StopsWhenFull dirsToOverride thread full s path fd listing ↔
      ∀ n, Stops full s.filled (inBatches full 2048 n s.filled (listing.map fillOfDirent))
        (listing.map fillOfDirent) := by
  constructor
  · intro hstops n
    cases hlists with
    | stream dir hs hunread =>
        have hnot : ¬ IsOverridden s fd := by simp [IsOverridden, hs.notOverridden]
        obtain ⟨es, r, s', hrun, hnofail⟩ := readdir_runs dirsToOverride thread full n hpath hs
        obtain ⟨m, hm, hfilled⟩ := readdir_offers hpath (.stream dir hs hunread) hrun
        obtain ⟨calls, hcalls, hstop⟩ := hstops n es (.ok r) s' hrun
        rw [hm hnofail hnot] at hfilled
        obtain rfl := List.append_cancel_left (hcalls.symm.trans hfilled)
        exact hstop
    | overridden hs =>
        -- the table is shorter than a batch
        obtain ⟨-, hshort⟩ := hs.valid
        apply stops_inBatches (by decide)
        intro i _
        rw [List.length_map]
        omega
  · intro hoffers n es r s' h
    obtain ⟨m, -, hfilled⟩ := readdir_offers hpath hlists h
    exact ⟨_, hfilled, hoffers m⟩

/-- **A full buffer stops a listing** exactly when the answer in which the buffer gets full is the
last with entries. -/
theorem stopsWhenFull_iff (dirsToOverride : DirsToOverride) (thread : UInt32 → ThreadId)
    (full : List (Bytes × FillStat) → Bool) (s : Mount) (path : Bytes) (fd : Int32)
    (listing : List Dirent) (hpath : (Zcfs.splitPath path).1 = s.client)
    (hlists : Lists s fd listing) :
    StopsWhenFull dirsToOverride thread full s path fd listing ↔
      ∀ i, FirstFull full s.filled (listing.map fillOfDirent) i →
        listing.length ≤ 2048 * (i / 2048 + 1) := by
  rw [stopsWhenFull_iff_inBatches hpath hlists, stops_inBatches_iff _ _ _ (by decide),
    List.length_map]

end

/-- The names from `0` to `2048`. -/
def numbered : List Dirent :=
  (List.range 2049).map fun k =>
    ⟨0, DirCommandsHandler.DT_DIR, ascii (toString (UInt32.ofNat k).toNat)⟩

/-- They are in a directory opened as 0. -/
def Mount.manyEntries : Mount := { Mount.oneEntry with unread := fun _ => numbered }

theorem lists_manyEntries : Lists .manyEntries 0 numbered := by
  have hunread : Mount.manyEntries.unread (some 1) = numbered := by simp only [Mount.manyEntries]
  refine .stream 1 ⟨by decide, by decide, by decide, by decide, ?_⟩ hunread
  intro d hd
  rw [hunread] at hd
  obtain ⟨k, -, rfl⟩ := List.mem_map.mp hd
  refine ⟨nulFree_digits _, ?_⟩
  have hlength := length_digits (UInt32.ofNat k)
  show (ascii (toString (UInt32.ofNat k).toNat)).length ≤ 255
  omega

theorem firstFull_manyEntries :
    FirstFull (fun _ => true) Mount.manyEntries.filled (numbered.map fillOfDirent) 0 :=
  ⟨by simp [numbered], rfl, fun j hj => absurd hj (Nat.not_lt_zero j)⟩

/-- A buffer without room for a second entry is filled with the first of each answer. -/
theorem stopsWhenFull_iff_manyEntries :
    ¬ StopsWhenFull [] (fun _ => 0) (fun _ => true) .manyEntries (ascii "/w/d") 0 numbered := by
  intro hstops
  have hlast := (stopsWhenFull_iff [] (fun _ => 0) (fun _ => true) .manyEntries (ascii "/w/d") 0
    numbered (by decide) lists_manyEntries).mp hstops 0 firstFull_manyEntries
  simp [numbered] at hlast

theorem not_stopsWhenFull :
    ¬ ∀ (full : List (Bytes × FillStat) → Bool) (s : Mount) (path : Bytes) (fd : Int32)
        (listing : List Dirent), (Zcfs.splitPath path).1 = s.client → Lists s fd listing →
      StopsWhenFull [] (fun _ => 0) full s path fd listing := by
  intro hall
  have hstops := hall (fun _ => true) .manyEntries (ascii "/w/d") 0 numbered (by decide)
    lists_manyEntries
  rw [stopsWhenFull_iff_inBatches (by decide) lists_manyEntries,
    stops_inBatches_iff _ _ _ (by decide)] at hstops
  have hlast := hstops 0 firstFull_manyEntries
  simp [numbered] at hlast

end ZControl
