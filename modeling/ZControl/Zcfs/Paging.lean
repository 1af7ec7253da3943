import ZControl.Zcfs.Relisting

/-!
# Reading a directory page by page

Successive requests for `n` entries on one handle. On a stream each continues where the last has
ended, so they return the pages of the directory; on an overridden directory each returns the first
page.
-/

namespace ZControl

open Interaction

/-- The entries at the positions from `k * n` to `k * n + n - 1`, as far as there are any. -/
def page (listing : List Dirent) (n k : Nat) : List DirEntry :=
  ((listing.drop (k * n)).take n).map entryOf

/-- The pages are the listing, cut into pieces of `n` entries. -/
theorem flatMap_page (listing : List Dirent) (n k : Nat) :
    (List.range k).flatMap (page listing n) = (listing.take (k * n)).map entryOf := by
  induction k with
  | zero => simp
  | succ k ih =>
      rw [List.range_succ, List.flatMap_append, ih, Nat.succ_mul, List.take_add, List.map_append]
      simp [page]

/-- The page in which the listing ends is not full. -/
theorem length_page_last (listing : List Dirent) {n : Nat} (hn : 0 < n) :
    (page listing n (listing.length / n)).length < n := by
  have hrest : listing.length - listing.length / n * n = listing.length % n := by
    rw [Nat.mul_comm, ← Nat.mod_eq_sub_mul_div]
  rw [page, List.length_map, List.length_take, List.length_drop, hrest]
  exact lt_of_le_of_lt (Nat.min_le_right _ _) (Nat.mod_lt _ hn)

/-- The entries that a request has returned. -/
def entriesOf : Except Fault (List DirEntry × Int32) → List DirEntry
  | .ok (entries, _) => entries
  | .error _         => []

/-- A directory has been opened as `fd`, and nothing has been read: it is served by a stream, or
from a list of a table. -/
inductive Fresh (s : Mount) (fd : Int32) (listing : List Dirent) : Prop where
  | stream (dir : Nat) (hs : Streams s fd dir) (hunread : s.unread (some dir) = listing)
  | table (hlookup : s.world.overriddenFds.lookup fd = some listing)
      (hvalid : ∀ d ∈ listing, ValidName d)

section

variable {dirsToOverride : DirsToOverride} {thread : UInt32 → ThreadId}
  {full : List (Bytes × FillStat) → Bool} {conn : ConnId} {fd : Int32} {n : UInt32}

variable (dirsToOverride thread full conn fd n) in
/-- Requests for `n` entries each, one after another, with what they end with. -/
inductive Requests : Mount → List (Except Fault (List DirEntry × Int32)) → List MountEvent →
    Mount → Prop where
  | none (s : Mount) : Requests s [] [] s
  | more {s s₁ s₂ : Mount} {pages : List (Except Fault (List DirEntry × Int32))}
      {es es' : List MountEvent} {r : Except Fault (List DirEntry × Int32)}
      (before : Requests s pages es s₁)
      (last : exec (Mount.step full) s₁ (Mounted dirsToOverride thread
        (Zcfs.onCommander conn (Commander.readdir fd n))) es' = some (r, s₂)) :
      Requests s (pages ++ [r]) (es ++ es') s₂

/-! ## Streams -/

/-- On a stream the requests return the pages in turn. -/
theorem requests_stream {dir : Nat} {s s' : Mount} {es : List MountEvent}
    {pages : List (Except Fault (List DirEntry × Int32))} (hs : Streams s fd dir) (hn : n ≠ 0)
    (hfits : ∀ k, (encodeDirEntries (page (s.unread (some dir)) n.toNat k)).length + 4 < 2 ^ 32)
    (h : Requests dirsToOverride thread full conn fd n s pages es s') (hnofail : failures es = []) :
    Streams s' fd dir ∧
      s'.unread (some dir) = (s.unread (some dir)).drop (pages.length * n.toNat) ∧
      pages = (List.range pages.length).map fun k =>
        .ok (page (s.unread (some dir)) n.toNat k, 0) := by
  induction h with
  | none => exact ⟨hs, by simp, rfl⟩
  | @more s₁ s₂ pages es es' r before last ih =>
      rw [failures_append, List.append_eq_nil_iff] at hnofail
      obtain ⟨hs₁, hunread, hpages⟩ := ih hnofail.1
      have hpage : ((s₁.unread (some dir)).take n.toNat).map entryOf =
          page (s.unread (some dir)) n.toNat pages.length := by
        rw [hunread, page]
      obtain ⟨-, m, f, rfl, -, hanswer⟩ :=
        request_streams hs₁ hn (by rw [hpage]; exact hfits _) last
      rcases hanswer with ⟨-, rfl, rfl⟩ | ⟨e, _, _, hone, _⟩
      · refine ⟨hs₁.after _ _ _ _, ?_, ?_⟩
        · rw [Mount.afterListing_unread, hunread, List.drop_drop, List.length_append,
            List.length_singleton, Nat.succ_mul]
        · rw [hpage, List.length_append, List.length_singleton, List.range_succ, List.map_append,
            ← hpages]
          rfl
      · rw [hnofail.2] at hone
        cases hone

/-! ## Tables -/

/-- On an overridden directory every request returns the first page. -/
theorem requests_table {s s' : Mount} {listing : List Dirent} {es : List MountEvent}
    {pages : List (Except Fault (List DirEntry × Int32))}
    (hlookup : s.world.overriddenFds.lookup fd = some listing)
    (hvalid : ∀ d ∈ listing, ValidName d)
    (hfits : (encodeDirEntries (page listing n.toNat 0)).length + 4 < 2 ^ 32)
    (h : Requests dirsToOverride thread full conn fd n s pages es s') :
    s'.world = s.world ∧ pages = List.replicate pages.length (.ok (page listing n.toNat 0, 0)) := by
  have hfirst : page listing n.toNat 0 = (listing.take n.toNat).map entryOf := by simp [page]
  rw [hfirst] at hfits ⊢
  induction h with
  | none => exact ⟨rfl, rfl⟩
  | more before last ih =>
      obtain ⟨hworld, hpages⟩ := ih
      rw [← hworld] at hlookup
      obtain ⟨-, rfl, rfl⟩ := request_table hlookup hvalid hfits last
      refine ⟨hworld, ?_⟩
      rw [List.length_append, List.length_singleton, List.replicate_succ', ← hpages]

variable (dirsToOverride thread full conn n) in
theorem requests_table_run {s : Mount} {listing : List Dirent}
    (hlookup : s.world.overriddenFds.lookup fd = some listing)
    (hvalid : ∀ d ∈ listing, ValidName d)
    (hfits : (encodeDirEntries ((listing.take n.toNat).map entryOf)).length + 4 < 2 ^ 32)
    (k : Nat) :
    ∃ pages es s', Requests dirsToOverride thread full conn fd n s pages es s' ∧
      pages.length = k ∧ failures es = [] ∧ s'.world = s.world := by
  induction k with
  | zero => exact ⟨[], [], s, .none s, rfl, rfl, rfl⟩
  | succ k ih =>
      obtain ⟨pages, es, s₁, hbefore, hlength, hnofail, hworld⟩ := ih
      rw [← hworld] at hlookup
      obtain ⟨es', hlast⟩ :=
        request_table_runs dirsToOverride thread full conn n hlookup hvalid hfits
      obtain ⟨hnofail', -⟩ := request_table hlookup hvalid hfits hlast
      refine ⟨_, _, _, .more hbefore hlast, ?_, ?_, hworld⟩
      · rw [List.length_append, hlength]
        rfl
      · rw [failures_append, hnofail, hnofail']
        rfl

/-! ## Both -/

variable (dirsToOverride thread full conn fd n) in
/-- Successive requests, of which no `::readdir` fails, return the pages of `listing`. -/
def Paged (s : Mount) (listing : List Dirent) : Prop :=
  ∀ pages es s', Requests dirsToOverride thread full conn fd n s pages es s' → failures es = [] →
    pages = (List.range pages.length).map fun k => .ok (page listing n.toNat k, 0)

/-- Together the pages are the part of the listing that has been asked for. -/
theorem Paged.concatenates {s s' : Mount} {listing : List Dirent} {es : List MountEvent}
    {pages : List (Except Fault (List DirEntry × Int32))}
    (hpaged : Paged dirsToOverride thread full conn fd n s listing)
    (h : Requests dirsToOverride thread full conn fd n s pages es s') (hnofail : failures es = []) :
    pages.flatMap entriesOf = (listing.take (pages.length * n.toNat)).map entryOf := by
  rw [hpaged pages es s' h hnofail, List.flatMap_map, List.length_map, List.length_range]
  exact flatMap_page listing n.toNat pages.length

/-- The request that reaches the end of the listing gets a short page. -/
theorem Paged.ends {s s' : Mount} {listing : List Dirent} {es : List MountEvent}
    {pages : List (Except Fault (List DirEntry × Int32))} {r : Except Fault (List DirEntry × Int32)}
    (hpaged : Paged dirsToOverride thread full conn fd n s listing) (hn : n ≠ 0)
    (h : Requests dirsToOverride thread full conn fd n s pages es s') (hnofail : failures es = [])
    (hr : pages[listing.length / n.toNat]? = some r) : (entriesOf r).length < n.toNat := by
  have hpos : 0 < n.toNat := Nat.pos_of_ne_zero fun h => hn (UInt32.toNat_inj.mp h)
  rw [hpaged pages es s' h hnofail, List.getElem?_map, Option.map_eq_some_iff] at hr
  obtain ⟨k, hk, rfl⟩ := hr
  obtain ⟨hlt, rfl⟩ := List.getElem?_eq_some_iff.mp hk
  rw [List.getElem_range]
  exact length_page_last listing hpos

/-- **Paging works on streams only**: the successive requests on a fresh handle return the pages of
its directory if and only if this is not overridden, or has no entries. Where they do, the pages
concatenate to the listing, and one that reaches its end is short. -/
theorem paged_iff (dirsToOverride : DirsToOverride) (thread : UInt32 → ThreadId)
    (full : List (Bytes × FillStat) → Bool) (conn : ConnId) (fd : Int32) (n : UInt32) (s : Mount)
    (listing : List Dirent) (hn : n ≠ 0) (hfresh : Fresh s fd listing)
    (hfits : ∀ k, (encodeDirEntries (page listing n.toNat k)).length + 4 < 2 ^ 32) :
    (Paged dirsToOverride thread full conn fd n s listing ↔
      ¬ IsOverridden s fd ∨ listing = []) ∧
    (Paged dirsToOverride thread full conn fd n s listing → ∀ pages es s',
      Requests dirsToOverride thread full conn fd n s pages es s' → failures es = [] →
        pages.flatMap entriesOf = (listing.take (pages.length * n.toNat)).map entryOf ∧
          ∀ r, pages[listing.length / n.toNat]? = some r → (entriesOf r).length < n.toNat) := by
  refine ⟨?_, fun hpaged pages es s' h hnofail =>
    ⟨hpaged.concatenates h hnofail, fun r => hpaged.ends hn h hnofail⟩⟩
  cases hfresh with
  | stream dir hs hunread =>
      subst hunread
      have hnot : ¬ IsOverridden s fd := by simp [IsOverridden, hs.notOverridden]
      refine iff_of_true ?_ (.inl hnot)
      intro pages es s' hrequests hnofail
      exact (requests_stream hs hn hfits hrequests hnofail).2.2
  | table hlookup hvalid =>
      have hover : IsOverridden s fd := by simp [IsOverridden, hlookup]
      constructor
      · -- behind the last page the first one is returned again
        intro hpaged
        right
        have hfirst : page listing n.toNat 0 = (listing.take n.toNat).map entryOf := by
          simp [page]
        obtain ⟨pages, es, s', hrequests, hlength, hnofail, -⟩ :=
          requests_table_run dirsToOverride thread full conn n hlookup hvalid
            (hfirst ▸ hfits 0) (listing.length + 1)
        have hpages := hpaged pages es s' hrequests hnofail
        rw [(requests_table hlookup hvalid (hfits 0) hrequests).2, List.length_replicate, hlength]
          at hpages
        have hsame : page listing n.toNat 0 = page listing n.toNat listing.length := by
          simpa using congrArg (fun l => l[listing.length]?) hpages
        have hpos : 0 < n.toNat := Nat.pos_of_ne_zero fun h => hn (UInt32.toNat_inj.mp h)
        have hbehind : page listing n.toNat listing.length = [] := by
          rw [page, List.drop_of_length_le (Nat.le_mul_of_pos_right _ hpos), List.take_nil]
          rfl
        rw [hbehind, hfirst, List.map_eq_nil_iff, List.take_eq_nil_iff] at hsame
        exact hsame.resolve_left (Nat.ne_of_gt hpos)
      · rintro (hnot | rfl) pages es s' hrequests hnofail
        · exact absurd hover hnot
        · rw [(requests_table hlookup hvalid (hfits 0) hrequests).2]
          simp [page]

end

theorem fresh_androidRoot : Fresh .androidRoot 0 androidRootEntries :=
  .table rfl valid_androidRootEntries

theorem androidRoot_fits (k : Nat) :
    (encodeDirEntries (page androidRootEntries 1 k)).length + 4 < 2 ^ 32 := by
  rcases k with _ | _ | k
  · decide
  · decide
  · have hbehind : page androidRootEntries 1 (k + 2) = [] := by
      rw [page, List.drop_of_length_le (by simp [androidRootEntries]), List.take_nil]
      rfl
    rw [hbehind]
    decide

/-- Read one entry at a time, it never ends. -/
theorem paged_iff_androidRoot :
    ¬ Paged DirCommandsHandler.androidDirsToOverride (fun _ => 0) (fun _ => false) 0 0 1
      .androidRoot androidRootEntries := by
  intro hpaged
  have hiff := paged_iff DirCommandsHandler.androidDirsToOverride (fun _ => 0) (fun _ => false) 0
    0 1 .androidRoot androidRootEntries (by decide) fresh_androidRoot androidRoot_fits
  rcases hiff.1.mp hpaged with hnot | hnil
  · exact hnot rfl
  · cases hnil

/-- The second request for one entry returns the first entry. -/
theorem not_paged :
    ¬ ∀ (fd : Int32) (n : UInt32) (s : Mount) (listing : List Dirent), n ≠ 0 →
      Fresh s fd listing →
      (∀ k, (encodeDirEntries (page listing n.toNat k)).length + 4 < 2 ^ 32) →
      Paged DirCommandsHandler.androidDirsToOverride (fun _ => 0) (fun _ => false) 0 fd n s
        listing := by
  intro hall
  have hpaged := hall 0 1 .androidRoot _ (by decide) fresh_androidRoot androidRoot_fits
  obtain ⟨pages, es, s', hrequests, hlength, hnofail, -⟩ := requests_table_run
    DirCommandsHandler.androidDirsToOverride (fun _ => 0) (fun _ => false) 0 1
    (show Mount.androidRoot.world.overriddenFds.lookup 0 = some _ from rfl)
    valid_androidRootEntries (androidRoot_fits 0) 2
  have hpages := hpaged pages es s' hrequests hnofail
  have hfits : (encodeDirEntries (page androidRootEntries (1 : UInt32).toNat 0)).length + 4 <
      2 ^ 32 := androidRoot_fits 0
  rw [(requests_table rfl valid_androidRootEntries hfits hrequests).2,
    List.length_replicate, hlength] at hpages
  have hsecond := congrArg (fun l => l[1]?) hpages
  revert hsecond
  decide

end ZControl
