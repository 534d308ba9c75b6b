import Cast.BootPublication.PromotedCleanupProperties

/-! Runs of boot publications from an empty chain of receipts. Each step is staged
against the receipt that was committed last and commits its own. Ownership of a key
goes back, receipt by receipt, to one that published it where nothing was. -/

namespace Cast.BootPublication.PublicationHistory

open Foundation InstalledDelta PromotedCleanup List

variable {device : DeviceNumbers} {key : CollisionKey} {receipts : List ReceiptBody}
  {receipt head : ReceiptBody} {owned : Bool} {action : DeltaAction}

/-- The receipts that a run has committed, the current head first. -/
inductive History (device : DeviceNumbers) : List ReceiptBody → Prop where
  | empty : History device []
  | commit {receipts : List ReceiptBody} {destinations : Destinations}
      {desired : List DesiredOutput} {states : List DestinationState}
      (earlier : History device receipts)
      (staged : Staged device receipts.head? destinations desired states) :
      History device (staged.receipt :: receipts)

/-- The receipt has the key, with a claim of the given kind. -/
def ClaimsKey (receipt : ReceiptBody) (key : CollisionKey) (kind : OutputProvenanceClaim → Prop) : Prop :=
  ∃ output ∈ receipt.outputs, PromotedCleanup.physicalKey receipt.destinations.aliasesEsp output = key ∧
    kind output.provenanceClaim

def OwnsKey (receipt : ReceiptBody) (key : CollisionKey) : Prop :=
  ClaimsKey receipt key fun claim => claimIsOwned claim = true

/-- One receipt published the key where nothing was, and it and all later ones own it. -/
def Trail (receipts : List ReceiptBody) (key : CollisionKey) : Prop :=
  ∃ later publisher earlier, receipts = later ++ publisher :: earlier ∧ ClaimsKey publisher key (· = .unclaimedAbsent) ∧
    ∀ receipt ∈ later ++ [publisher], OwnsKey receipt key

theorem Trail.extend (trail : Trail receipts key) (owns : OwnsKey receipt key) : Trail (receipt :: receipts) key := by
  obtain ⟨later, publisher, earlier, same, published, owned⟩ := trail
  refine ⟨receipt :: later, publisher, earlier, by rw [same]; rfl, published, ?_⟩
  rw [cons_append, forall_mem_cons]
  exact ⟨owns, owned⟩

theorem Trail.start (published : ClaimsKey receipt key (· = .unclaimedAbsent)) : Trail (receipt :: receipts) key := by
  refine ⟨[], receipt, receipts, rfl, published, ?_⟩
  rw [nil_append, forall_mem_singleton]
  obtain ⟨output, member, sameKey, claim⟩ := published
  exact ⟨output, member, sameKey, by rw [claim]; rfl⟩

section Step

variable {predecessor : Option ReceiptBody} {destinations : Destinations} {desired : List DesiredOutput}
  {states : List DestinationState} (staged : Staged device predecessor destinations desired states)

include staged in
theorem aliasesEsp_of_head (known : predecessor = some head) :
    head.destinations.aliasesEsp = destinations.aliasesEsp := by
  have same := staged.destinations_match known
  cases first : head.destinations <;> cases second : destinations <;>
    simp_all [destinationsMatch, Destinations.aliasesEsp]

include staged in
theorem head_owns (owned : ownedAt (layoutOf destinations) (installedOutputs predecessor) key = true) :
    ∃ head, predecessor = some head ∧ OwnsKey head key := by
  rw [ownedAt] at owned
  cases found : installedAt (layoutOf destinations) (installedOutputs predecessor) key with
  | none =>
    rw [found] at owned
    cases owned
  | some output =>
    rw [found] at owned
    obtain ⟨row, looked, same⟩ := Option.map_eq_some_iff.mp found
    obtain ⟨place, sameKey⟩ := rowAt_eq_some looked
    subst same
    have member := mem_of_getElem? place
    cases known : predecessor with
    | none =>
      rw [known] at member
      cases member
    | some head =>
      rw [known] at member
      refine ⟨head, rfl, row.2, member, ?_, ?_⟩
      · rw [aliasesEsp_of_head staged known, physicalKey_eq_installedKey, sameKey]
      · exact (claimIsOwned_eq _).trans owned

/-- An owned output of the new receipt was published where nothing was, or was owned
before. -/
theorem receipt_owns (owns : OwnsKey staged.receipt key) : ClaimsKey staged.receipt key (· = .unclaimedAbsent) ∨
      ownedAt (layoutOf destinations) (installedOutputs predecessor) key = true := by
  obtain ⟨output, member, sameKey, owned⟩ := owns
  obtain ⟨index, place⟩ := mem_iff_getElem?.mp member
  obtain ⟨wanted, state, action, claim, _, _, acted, claimed, made⟩ := staged.output_origin place
  have wantedKey : desiredKey (layoutOf destinations) wanted = key := by
    rw [staged.completed_facts.2.1, physicalKey_eq_installedKey, made] at sameKey
    exact sameKey
  rw [wantedKey] at acted
  cases before : ownedAt (layoutOf destinations) (installedOutputs predecessor) key with
  | true => exact .inr rfl
  | false =>
    rw [before] at acted
    refine .inl ⟨output, member, sameKey, ?_⟩
    rw [made] at owned ⊢
    cases state with
    | absent =>
      cases acted
      cases claimed
      rfl
    | exact =>
      cases acted
      cases claimed
      cases owned
    | different => cases acted

theorem Joined.owned_builder {layout : PublicationPlan.Layout} {installed : List Output}
    {union : InstalledDelta.Union} (joined : Joined layout installed desired union)
    {builder : DeltaRequestBuilder} (found : union.find? key = some builder)
    (owned : builder.installedOwned = true) :
    InstalledDelta.physicalKey layout builder.root builder.relativePath = key ∧
      ownedAt layout installed key = true := by
  have looked := joined.lookup key
  rw [found] at looked
  cases present : installedAt layout installed key with
  | none =>
    rw [present] at looked
    cases wanted : desiredAt layout desired key <;> rw [wanted] at looked <;> cases looked
    cases owned
  | some output =>
    rw [present] at looked
    have same : builder.root = output.root ∧ builder.relativePath = output.relativePath ∧
        builder.installedOwned = installedClaimIsOwned output.provenanceClaim := by
      cases wanted : desiredAt layout desired key <;> rw [wanted] at looked <;> cases looked <;>
        exact ⟨rfl, rfl, rfl⟩
    obtain ⟨row, rowFound, isRow⟩ := Option.map_eq_some_iff.mp present
    subst isRow
    rw [same.1, same.2.1, ownedAt, present]
    exact ⟨(rowAt_eq_some rowFound).2, same.2.2.symm.trans owned⟩

def Removes (action : DeltaAction) : Prop :=
  action = .replaceOwnedDesired ∨ action = .deleteOwnedStaleAfterPromotion

theorem staleAction_owned (acted : staleAction owned = action) (removes : Removes action) : owned = true := by
  subst acted
  cases owned with
  | true => rfl
  | false => simp [Removes, staleAction] at removes

theorem desiredAction_owned {state : DestinationState}
    (acted : desiredAction owned state = some action) (removes : Removes action) : owned = true := by
  cases owned with
  | true => rfl
  | false => cases state <;> cases acted <;> simp [Removes] at removes

/-- An action that replaces or deletes is taken only where the receipt before owns. -/
theorem entry_owned {entry : ClassifiedEntry} (member : entry ∈ staged.entries) (removes : Removes entry.action) :
    ownedAt (layoutOf destinations) (installedOutputs predecessor)
      (InstalledDelta.physicalKey (layoutOf destinations) entry.root entry.relativePath) = true := by
  obtain ⟨union, joined, _, requests⟩ := staged.joined
  obtain ⟨sealedByKey, _, each⟩ := classify_sound staged.classified
  obtain ⟨request, requestMember, classified⟩ := exists_left_of_mem each member
  rw [requests] at requestMember
  obtain ⟨⟨key, builder⟩, entryMember, same⟩ := mem_map.mp requestMember
  have owned : request.installedOwned = true := by
    cases wanted : request.desired with
    | none => exact staleAction_owned (classified.stale wanted) removes
    | some expected =>
      obtain ⟨row, _, acted⟩ := classified.acted expected wanted
      exact desiredAction_owned acted removes
  subst same
  obtain ⟨sameKey, holds⟩ := Joined.owned_builder joined (SortedMap.find?_eq_some_iff.mpr entryMember) owned
  rw [classified.root, classified.path]
  rw [← sameKey] at holds
  exact holds

theorem dispositionOf_owned {output : Output} {installed : Option Output}
    {disposition : CleanupDisposition} (decided : dispositionOf output installed = some disposition)
    (removes : disposition = .replaceOwned ∨ disposition = .deleteOwnedStale) :
    claimIsOwned output.provenanceClaim = true := by
  cases owned : claimIsOwned output.provenanceClaim with
  | true => rfl
  | false =>
    cases installed with
    | none =>
      simp only [dispositionOf, owned, Bool.false_eq_true, if_false, Option.some.injEq] at decided
      subst decided
      simp at removes
    | some other =>
      by_cases exact : exactBytes output other <;>
        by_cases kept : other.provenanceClaim = retainedClaim output <;>
        simp [dispositionOf, owned, exact, kept] at decided
      subst decided
      simp at removes

/-- A disposition that replaces or deletes is of an output that the receipt before owns. -/
theorem planned_owned (valid : ∀ receipt, predecessor = some receipt → receipt.validate device = .ok ())
    {chain : PromotedReceiptChain} (promotes : Promotes staged chain) {plan : CleanupPlan}
    (prepared : prepareActiveReblitPromotedBootCleanupPlan chain = .ok plan)
    {entry : CleanupPlanEntry} (member : entry ∈ plan.entries)
    (removes : entry.disposition = .replaceOwned ∨ entry.disposition = .deleteOwnedStale) :
    ownedAt (layoutOf destinations) (installedOutputs predecessor)
      (PromotedCleanup.physicalKey destinations.aliasesEsp entry.predecessorOutput) = true := by
  obtain ⟨entries, planned, same⟩ := (prepare_eq_ok staged valid promotes).mp prepared
  subst same
  obtain ⟨output, found, plannedFor⟩ := exists_left_of_mem planned member
  rw [plannedFor.classifies, physicalKey_eq_installedKey, ownedAt_of_mem staged found, ← claimIsOwned_eq]
  exact dispositionOf_owned plannedFor.disposition removes

end Step

/-- Along every run the head owns only keys with a trail. -/
theorem History.trail (history : History device receipts)
    (isHead : receipts.head? = some head) (owns : OwnsKey head key) : Trail receipts key := by
  induction history generalizing head with
  | empty => cases isHead
  | commit earlier staged ih =>
    cases isHead
    rcases receipt_owns staged owns with published | before
    · exact Trail.start published
    · obtain ⟨previous, isPrevious, previousOwns⟩ := head_owns staged before
      exact (ih isPrevious previousOwns).extend owns

theorem History.head_valid (history : History device receipts) (receipt : ReceiptBody)
    (isHead : receipts.head? = some receipt) : receipt.validate device = .ok () := by
  cases history with
  | empty => cases isHead
  | commit earlier staged =>
    cases isHead
    exact staged.completed_facts.2.2.2

/-- In every run of publications, a step replaces or deletes, and its cleanup does, only
where an earlier receipt of the run published the key into nothing and every receipt since
owns it. -/
theorem removal_has_trail (history : History device receipts) {destinations : Destinations}
    {desired : List DesiredOutput} {states : List DestinationState}
    (staged : Staged device receipts.head? destinations desired states) :
    (∀ entry ∈ staged.entries, entry.action = .replaceOwnedDesired ∨
        entry.action = .deleteOwnedStaleAfterPromotion →
      Trail receipts (InstalledDelta.physicalKey (layoutOf destinations) entry.root entry.relativePath)) ∧
    (∀ chain plan, Promotes staged chain → prepareActiveReblitPromotedBootCleanupPlan chain = .ok plan →
      ∀ entry ∈ plan.entries, entry.disposition = .replaceOwned ∨
          entry.disposition = .deleteOwnedStale →
        Trail receipts (PromotedCleanup.physicalKey destinations.aliasesEsp entry.predecessorOutput)) := by
  constructor
  · intro entry member removes
    obtain ⟨head, isHead, owns⟩ := head_owns staged (entry_owned staged member removes)
    exact history.trail isHead owns
  · intro chain plan promotes prepared entry member removes
    obtain ⟨head, isHead, owns⟩ := head_owns staged
      (planned_owned staged history.head_valid promotes prepared member removes)
    exact history.trail isHead owns

theorem replacedKernel_has_trail : Trail [firstKernel.receipt] (desiredKey .bootAliasesEsp (kernelOutput 0)) :=
  (removal_has_trail (.commit .empty firstKernel) replacedKernel).1 _ (mem_singleton_self _) (.inl rfl)

end Cast.BootPublication.PublicationHistory
