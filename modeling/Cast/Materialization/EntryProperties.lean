import Cast.Materialization.LayoutPlanning
import Cast.Vfs.BuilderProperties

/-! What is known of the entries of a frozen root that were accepted: their paths are
normalized, the tree builder sees the same paths, and their sort key determines them. So the
selected entries do not depend on the order of the layout records. -/

namespace Cast.Materialization

open Foundation Vfs Stone List

variable {entry : FrozenLayoutEntry} {packages : List PackageId} {layouts : List (PackageId × LayoutRecord)}

theorem renderTail_splitOn (target : AStr) : renderTail (target.splitOn '/') = '/' :: target := by
  obtain ⟨first, rest, split⟩ := exists_cons_of_ne_nil (splitOn_ne_nil '/' target)
  have joined : ['/'].intercalate (target.splitOn '/') = target := intercalate_splitOn _
  rw [split, intercalate_cons] at joined
  rw [split, ← joined]
  rfl

/-- A target as Stone admits it. -/
structure RelativeTarget (target : AStr) : Prop where
  filled : target ≠ []
  relative : target.head? ≠ some '/'
  trimmed : target.getLast? ≠ some '/'
  single : ¬ ['/', '/'] <:+: target

variable {target : AStr}

theorem RelativeTarget.of_required
    (required : requireUsrRelativeStoneTarget target = .ok ()) : RelativeTarget target := by
  simp only [requireUsrRelativeStoneTarget, bind_eq_ok, exists_check, refuse_eq_ok] at required
  obtain ⟨filled, relative, _, trimmed, single, _⟩ := required
  exact ⟨filled, relative, trimmed, single⟩

def usrNames (target : AStr) : List AStr := "usr".toList :: target.splitOn '/'

theorem usrPath_eq (target : AStr) : "/usr/".toList ++ target = render (usrNames target) := by
  rw [usrNames, render_of_ne_nil (cons_ne_nil _ _), renderTail_cons, renderTail_splitOn]
  rfl

theorem RelativeTarget.clean (isTarget : RelativeTarget target) : Clean (usrNames target) := by
  refine forall_mem_cons.mpr ⟨⟨by decide, by decide⟩, fun name component => ?_⟩
  exact ⟨filled_of_mem_splitOn isTarget.filled isTarget.relative isTarget.trimmed isTarget.single
    component, notMem_of_mem_splitOn component⟩

variable {orders : SortedMap PackageId Nat} {row : PackageId × LayoutRecord}

structure Accepted (orders : SortedMap PackageId Nat) (row : PackageId × LayoutRecord)
    (entry : FrozenLayoutEntry) : Prop where
  order : orders.find? row.1 = some entry.packageOrder
  package : entry.package = row.1
  layout : entry.layout = row.2
  target : RelativeTarget row.2.file.target.toList
  path : entry.path = "/usr/".toList ++ row.2.file.target.toList
  supported : (expectedFileType row.2.file).isSome = true
  kindOrder : entry.kindOrder = kindOrderOf row.2.file
  sourceOrder : entry.sourceOrder = sourceOrderOf row.2.file

theorem accepted_of_entryOf (made : entryOf orders row = .ok entry) : Accepted orders row entry := by
  simp only [entryOf, FrozenLayoutEntry.new, requireUsrRelativeStoneLayout, bind_eq_ok, okOr_eq_ok,
    exists_check, mapError_eq_ok, refuse_eq_ok, pure_eq_ok] at made
  obtain ⟨order, found, required, _, _, _, expected, supported, _, same⟩ := made
  subst same
  exact ⟨found, rfl, rfl, .of_required required, rfl, Option.isSome_iff_exists.mpr ⟨expected, supported⟩, rfl, rfl⟩

namespace Accepted

variable (accepted : Accepted orders row entry)
include accepted

theorem path_eq : entry.path = render (usrNames row.2.file.target.toList) := accepted.path.trans (usrPath_eq _)

theorem normal : Normalized entry.path := ⟨_, accepted.target.clean, accepted.path_eq⟩

theorem pending_path : BlitFile.path entry.pending = entry.path := by
  change join "/usr".toList entry.layout.file.target.toList = entry.path
  rw [accepted.layout, accepted.path, join, if_neg accepted.target.relative]
  rfl

end Accepted

theorem digitChar_injective {first second : Nat} (firstSmall : first < 16) (secondSmall : second < 16)
    (same : Nat.digitChar first = Nat.digitChar second) : first = second := by
  have all : ∀ first < 16, ∀ second < 16, Nat.digitChar first = Nat.digitChar second → first = second := by decide
  exact all first firstSmall second secondSmall same

theorem hexText_injective {width first second : Nat} (firstSmall : first < 16 ^ width)
    (secondSmall : second < 16 ^ width) (same : hexText width first = hexText width second) :
    first = second := by
  induction width generalizing first second with
  | zero => omega
  | succ width ih =>
    rw [Nat.pow_succ] at firstSmall secondSmall
    obtain ⟨leading, last⟩ := append_inj' same rfl
    have sameLeading := ih (Nat.div_lt_of_lt_mul (by omega)) (Nat.div_lt_of_lt_mul (by omega)) leading
    have sameLast := digitChar_injective (Nat.mod_lt _ (by decide)) (Nat.mod_lt _ (by decide)) (singleton_inj.mp last)
    omega

/-- Kind, source and target are all of a supported file. -/
theorem file_eq_of_orders {first second : LayoutFile} (firstSupported : (expectedFileType first).isSome = true)
    (secondSupported : (expectedFileType second).isSome = true)
    (sameTarget : first.target = second.target) (sameKind : kindOrderOf first = kindOrderOf second)
    (sameSource : sourceOrderOf first = sourceOrderOf second) : first = second := by
  cases first with
  | regular hash target =>
    cases second with
    | regular otherHash otherTarget =>
      change target = otherTarget at sameTarget
      have sameHash := hexText_injective (by exact hash.isLt) (by exact otherHash.isLt) sameSource
      rw [sameTarget, BitVec.eq_of_toNat_eq sameHash]
    | symlink | directory => cases sameKind
    | _ => cases secondSupported
  | symlink source target =>
    cases second with
    | symlink otherSource otherTarget =>
      change target = otherTarget at sameTarget
      rw [sameTarget, String.toList_inj.mp sameSource]
    | regular | directory => cases sameKind
    | _ => cases secondSupported
  | directory target =>
    cases second with
    | directory otherTarget =>
      change target = otherTarget at sameTarget
      rw [sameTarget]
    | regular | symlink => cases sameKind
    | _ => cases secondSupported
  | _ => cases firstSupported

variable {first second : FrozenLayoutEntry} {firstRow secondRow : PackageId × LayoutRecord}

theorem packageOrders_sound {package : PackageId} {order : Nat}
    (found : (packageOrders packages).find? package = some order) :
    packages[order]? = some package := by
  have named := @SortedMap.find?_foldl_sound _ _ _ _ _ .empty package order _
    (fun orders (entry : PackageId × Nat) => orders.insert entry.1 entry.2) Prod.fst (fun entry => some entry.2)
    packages.zipIdx (by rintro _ _ _ ⟨⟩; rfl) (by rintro _ _ ⟨⟩) found
  obtain absent | ⟨entry, member, rfl, same⟩ := named
  · cases absent
  · cases same
    exact mem_zipIdx_iff_getElem?.mp member

instance : Std.TransCmp compareEntries := by
  unfold compareEntries
  infer_instance

theorem Accepted.eq_of_compare (firstAccepted : Accepted (packageOrders packages) firstRow first)
    (secondAccepted : Accepted (packageOrders packages) secondRow second)
    (same : compareEntries first second = .eq) : first = second := by
  simp only [compareEntries, compareLex_eq_eq, compareOn, Std.LawfulEqCmp.compare_eq_iff_eq] at same
  obtain ⟨path, order, kind, source, uid, gid, mode, tag⟩ := same
  have samePackage : first.package = second.package := by
    have firstPlace := packageOrders_sound firstAccepted.order
    have secondPlace := packageOrders_sound secondAccepted.order
    rw [order, secondPlace] at firstPlace
    rw [firstAccepted.package, secondAccepted.package, Option.some.inj firstPlace]
  have sameTarget : firstRow.2.file.target = secondRow.2.file.target := by
    rw [firstAccepted.path, secondAccepted.path] at path
    exact String.toList_inj.mp (append_cancel_left path)
  have sameFile : first.layout.file = second.layout.file := by
    rw [firstAccepted.layout, secondAccepted.layout]
    refine file_eq_of_orders firstAccepted.supported secondAccepted.supported sameTarget ?_ ?_
    · rw [← firstAccepted.kindOrder, ← secondAccepted.kindOrder, kind]
    · rw [← firstAccepted.sourceOrder, ← secondAccepted.sourceOrder, source]
  obtain ⟨package, ⟨_, _, _, _, file⟩, _⟩ := first
  obtain ⟨otherPackage, ⟨_, _, _, _, otherFile⟩, _⟩ := second
  cases samePackage
  cases sameFile
  cases path
  cases order
  cases kind
  cases source
  cases uid
  cases gid
  cases mode
  cases tag
  rfl

theorem sortEntries_perm (entries : List FrozenLayoutEntry) : (sortEntries entries).Perm entries :=
  perm_insertionSort _ entries

theorem sortEntries_sorted (entries : List FrozenLayoutEntry) :
    (sortEntries entries).Pairwise fun left right => (compareEntries left right).isLE = true :=
  sorted_insertionSort entries

def AllAccepted (packages : List PackageId) (layouts : List (PackageId × LayoutRecord))
    (entries : List FrozenLayoutEntry) : Prop :=
  Forall₂ (Accepted (packageOrders packages)) layouts entries

variable {others : List (PackageId × LayoutRecord)} {entries : List FrozenLayoutEntry}

theorem AllAccepted.of_mem (all : AllAccepted packages layouts entries)
    (member : entry ∈ entries) : ∃ row ∈ layouts, Accepted (packageOrders packages) row entry :=
  exists_left_of_mem all member

theorem allAccepted_of_mapM (made : layouts.mapM (entryOf (packageOrders packages)) = .ok entries) :
    AllAccepted packages layouts entries :=
  (mapM_eq_ok.mp made).imp fun _ _ => accepted_of_entryOf

/-- The selection of permuted records is the same, if there is one. -/
theorem selectEntries_of_perm (permuted : layouts.Perm others) {selected : List FrozenLayoutEntry}
    (chosen : selectEntries packages layouts = .ok selected) :
    selectEntries packages others = .ok selected := by
  rw [selectEntries, bind_eq_ok] at chosen ⊢
  obtain ⟨entries, made, ran⟩ := chosen
  obtain ⟨otherEntries, otherMade, entriesPerm⟩ := perm_comp_forall₂ permuted.symm (mapM_eq_ok.mp made)
  refine ⟨otherEntries, mapM_eq_ok.mpr otherMade, ?_⟩
  have all := allAccepted_of_mapM made
  have sameSort : sortEntries entries = sortEntries otherEntries := by
    refine eq_of_perm_of_sorted ((sortEntries_perm entries).trans
      (entriesPerm.symm.trans (sortEntries_perm otherEntries).symm)) ?_ (sortEntries_sorted _)
      (sortEntries_sorted _)
    intro left leftMember right rightMember same
    obtain ⟨leftRow, _, leftAccepted⟩ := all.of_mem ((sortEntries_perm entries).mem_iff.mp leftMember)
    obtain ⟨rightRow, _, rightAccepted⟩ := all.of_mem ((sortEntries_perm entries).mem_iff.mp rightMember)
    exact leftAccepted.eq_of_compare rightAccepted same
  rw [← sameSort]
  exact ran

variable {sorted selected next : List FrozenLayoutEntry}

theorem selectEntry_eq_ok (ran : selectEntry selected entry = .ok next) :
    (next = selected ∧ ∃ previous, selected.getLast? = some previous ∧
      previous.path = entry.path ∧ identicalDirectoryMetadata previous entry = true) ∨
    (next = selected ++ [entry] ∧ ∀ previous, selected.getLast? = some previous → previous.path ≠ entry.path) := by
  rw [selectEntry] at ran
  cases last : selected.getLast? with
  | none =>
    rw [last] at ran
    cases ran
    exact .inr ⟨rfl, fun _ found => by cases found⟩
  | some previous =>
    rw [last] at ran
    simp only at ran
    by_cases samePath : previous.path = entry.path
    · rw [if_pos samePath] at ran
      by_cases identical : identicalDirectoryMetadata previous entry = true
      · rw [if_pos identical] at ran
        cases ran
        exact .inl ⟨rfl, previous, rfl, samePath, identical⟩
      · rw [if_neg identical] at ran
        cases ran
    · rw [if_neg samePath] at ran
      cases ran
      refine .inr ⟨rfl, ?_⟩
      intro other found
      cases found
      exact samePath

/-- One entry for each path of those that were seen, in increasing order. -/
structure SelectedOf (seen selected : List FrozenLayoutEntry) : Prop where
  part : ∀ entry ∈ selected, entry ∈ seen
  increasing : selected.Pairwise fun left right => compare left.path right.path = .lt
  covers : ∀ entry ∈ seen, ∃ kept ∈ selected, kept.path = entry.path ∧
    (kept = entry ∨ identicalDirectoryMetadata kept entry = true)

/-- A new path that is not before the last one is after all of them. -/
theorem SelectedOf.increasing_concat {seen : List FrozenLayoutEntry} (soFar : SelectedOf seen selected)
    (ordered : ∀ earlier ∈ seen, (compareEntries earlier entry).isLE = true)
    (fresh : ∀ previous, selected.getLast? = some previous → previous.path ≠ entry.path) :
    ∀ earlier ∈ selected, compare earlier.path entry.path = .lt := by
  intro earlier member
  obtain ⟨front, previous, split⟩ := (eq_nil_or_concat' selected).resolve_left (ne_nil_of_mem member)
  subst split
  have previousIn : previous ∈ front ++ [previous] := by simp
  have differs := fresh previous (by simp)
  have notAfter : (compare previous.path entry.path).isLE = true := by
    have whole := ordered previous (soFar.part previous previousIn)
    rw [compareEntries, compareLex] at whole
    exact (Ordering.isLE_then_iff_and.mp whole).1
  have before : compare previous.path entry.path = .lt := by
    rw [Ordering.isLE_iff_eq_lt_or_eq_eq] at notAfter
    rcases notAfter with isBefore | same
    · exact isBefore
    · exact absurd (Std.LawfulEqOrd.eq_of_compare same) differs
  rcases mem_append.mp member with inFront | isLast
  · have earlierBefore := (pairwise_append.mp soFar.increasing).2.2 earlier inFront previous (by simp)
    exact Std.TransCmp.lt_trans earlierBefore before
  · rw [mem_singleton.mp isLast]
    exact before

theorem SelectedOf.step {seen after : List FrozenLayoutEntry}
    (isSorted : (seen ++ entry :: after).Pairwise fun left right =>
      (compareEntries left right).isLE = true)
    (soFar : SelectedOf seen selected) (ran : selectEntry selected entry = .ok next) :
    SelectedOf (seen ++ [entry]) next := by
  have ordered : ∀ earlier ∈ seen, (compareEntries earlier entry).isLE = true := by
    intro earlier member
    exact (pairwise_append.mp isSorted).2.2 earlier member entry mem_cons_self
  rcases selectEntry_eq_ok ran with ⟨same, previous, last, path, identical⟩ | ⟨added, fresh⟩
  · subst same
    refine ⟨fun kept member => mem_append_left _ (soFar.part kept member), soFar.increasing, ?_⟩
    intro known member
    rcases mem_concat.mp member with old | rfl
    · exact soFar.covers known old
    · exact ⟨previous, mem_of_getLast? last, path, .inr identical⟩
  · subst added
    refine ⟨?_, ?_, ?_⟩
    · intro kept member
      rcases mem_append.mp member with old | new
      · exact mem_append_left _ (soFar.part kept old)
      · exact mem_append_right _ new
    · rw [pairwise_append]
      refine ⟨soFar.increasing, pairwise_singleton _ _, ?_⟩
      intro earlier member other isOther
      cases mem_singleton.mp isOther
      exact soFar.increasing_concat ordered fresh earlier member
    · intro known member
      rcases mem_append.mp member with old | new
      · obtain ⟨kept, isKept, path, alike⟩ := soFar.covers known old
        exact ⟨kept, mem_append_left _ isKept, path, alike⟩
      · exact ⟨known, mem_append_right _ new, rfl, .inl rfl⟩

theorem selectedOf_run (isSorted : sorted.Pairwise fun left right =>
      (compareEntries left right).isLE = true)
    (ran : sorted.foldlM selectEntry [] = .ok selected) : SelectedOf sorted selected := by
  refine foldlM_processed SelectedOf ?_ ?_ ran
  · exact ⟨by simp, .nil, by simp⟩
  · intro before entry after state next split soFar stepped
    exact soFar.step (split ▸ isSorted) stepped

/-- What is selected of the layout records: accepted entries with distinct paths, and for each
record one with its layout. -/
structure Selection (packages : List PackageId) (layouts : List (PackageId × LayoutRecord))
    (selected : List FrozenLayoutEntry) : Prop where
  accepted : ∀ entry ∈ selected, ∃ row ∈ layouts, Accepted (packageOrders packages) row entry
  distinct : (selected.map FrozenLayoutEntry.path).Nodup
  covers : ∀ row ∈ layouts, ∃ entry ∈ selected, entry.layout = row.2 ∧
    (entry.package = row.1 ∨ entry.isDirectory = true)

theorem layout_eq_of_identical {kept : FrozenLayoutEntry} {keptRow row : PackageId × LayoutRecord}
    (keptAccepted : Accepted (packageOrders packages) keptRow kept)
    (accepted : Accepted (packageOrders packages) row entry) (path : kept.path = entry.path)
    (identical : identicalDirectoryMetadata kept entry = true) :
    kept.layout = entry.layout ∧ kept.isDirectory = true := by
  simp only [identicalDirectoryMetadata, Bool.and_eq_true, beq_iff_eq] at identical
  obtain ⟨⟨⟨⟨⟨keptDirectory, isDirectory⟩, uid⟩, gid⟩, mode⟩, tag⟩ := identical
  rw [keptAccepted.path, accepted.path] at path
  have target := String.toList_inj.mp (append_cancel_left path)
  rw [← keptAccepted.layout, ← accepted.layout] at target
  refine ⟨?_, keptDirectory⟩
  rw [FrozenLayoutEntry.isDirectory] at keptDirectory isDirectory
  obtain ⟨_, ⟨_, _, _, _, keptFile⟩, _⟩ := kept
  obtain ⟨_, ⟨_, _, _, _, file⟩, _⟩ := entry
  have sameFile : keptFile = file := by
    cases keptFile with
    | directory keptTarget =>
      cases file with
      | directory fileTarget => exact congrArg LayoutFile.directory target
      | _ => cases isDirectory
    | _ => cases keptDirectory
  cases sameFile
  cases uid
  cases gid
  cases mode
  cases tag
  rfl

theorem selection_of_selectEntries (chosen : selectEntries packages layouts = .ok selected) :
    Selection packages layouts selected := by
  rw [selectEntries, bind_eq_ok] at chosen
  obtain ⟨entries, made, ran⟩ := chosen
  have all := allAccepted_of_mapM made
  have isSelected := selectedOf_run (sortEntries_sorted entries) ran
  have accepted : ∀ entry ∈ selected, ∃ row ∈ layouts, Accepted (packageOrders packages) row entry := by
    intro entry member
    exact all.of_mem ((sortEntries_perm entries).mem_iff.mp (isSelected.part entry member))
  refine ⟨accepted, ?_, ?_⟩
  · refine pairwise_map.mpr (isSelected.increasing.imp ?_)
    intro left right before
    exact (SortedMap.ne_of_compare_lt before).symm
  · intro row member
    obtain ⟨entry, isEntry, isAccepted⟩ := exists_right_of_mem all member
    obtain ⟨kept, isKept, path, alike⟩ := isSelected.covers entry ((sortEntries_perm entries).mem_iff.mpr isEntry)
    refine ⟨kept, isKept, ?_⟩
    rcases alike with same | identical
    · subst same
      exact ⟨isAccepted.layout, .inl isAccepted.package⟩
    · obtain ⟨keptRow, _, keptAccepted⟩ := accepted kept isKept
      obtain ⟨sameLayout, isDirectory⟩ := layout_eq_of_identical keptAccepted isAccepted path identical
      exact ⟨sameLayout.trans isAccepted.layout, .inr isDirectory⟩

end Cast.Materialization
