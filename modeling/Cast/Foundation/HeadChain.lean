import Mathlib.Data.List.Nodup
import Mathlib.Logic.Relation

/-! Append-only chains with one pending item. Items are stored once and stay; an item is
first pending and then committed, and each committed item names the one that was committed
before it. -/

namespace Cast.Foundation

open List

variable {α κ ω : Type} {item : α}

/-- How items are told apart, who owns one, and what one follows. -/
structure ChainKeys (α κ ω : Type) where
  keyOf : α → κ
  ownerOf : α → ω
  previous : α → Option κ

/-- The stored items, the committed keys with the newest first, and the pending item. -/
structure HeadChain (keys : ChainKeys α κ ω) where
  items : List α
  commits : List κ
  pending : Option α
  distinctKeys : (items.map keys.keyOf).Nodup
  distinctOwners : (items.map keys.ownerOf).Nodup
  distinctCommits : commits.Nodup
  linked : ∀ newer key older, commits = newer ++ key :: older →
    ∃ item ∈ items, keys.keyOf item = key ∧ keys.previous item = older.head?
  pendingStored : ∀ item, pending = some item → item ∈ items
  pendingFollows : ∀ item, pending = some item → keys.previous item = commits.head?
  pendingUncommitted : ∀ item, pending = some item → keys.keyOf item ∉ commits

namespace HeadChain

variable {keys : ChainKeys α κ ω}

def empty : HeadChain keys where
  items := []
  commits := []
  pending := none
  distinctKeys := nodup_nil
  distinctOwners := nodup_nil
  distinctCommits := nodup_nil
  linked newer key older same := by cases newer <;> cases same
  pendingStored _ known := by cases known
  pendingFollows _ known := by cases known
  pendingUncommitted _ known := by cases known

variable (chain : HeadChain keys)

structure Admits (item : α) : Prop where
  unpended : chain.pending = none
  follows : keys.previous item = chain.commits.head?
  newKey : keys.keyOf item ∉ chain.items.map keys.keyOf
  newOwner : keys.ownerOf item ∉ chain.items.map keys.ownerOf

theorem committed_stored {key : κ} (committed : key ∈ chain.commits) : ∃ item ∈ chain.items, keys.keyOf item = key := by
  obtain ⟨newer, older, same⟩ := append_of_mem committed
  obtain ⟨item, member, sameKey, _⟩ := chain.linked newer key older same
  exact ⟨item, member, sameKey⟩

def stage (item : α) (admits : chain.Admits item) : HeadChain keys where
  items := chain.items ++ [item]
  commits := chain.commits
  pending := some item
  distinctKeys := by
    rw [map_append, map_singleton, nodup_append_comm, singleton_append, nodup_cons]
    exact ⟨admits.newKey, chain.distinctKeys⟩
  distinctOwners := by
    rw [map_append, map_singleton, nodup_append_comm, singleton_append, nodup_cons]
    exact ⟨admits.newOwner, chain.distinctOwners⟩
  distinctCommits := chain.distinctCommits
  linked newer key older same := by
    obtain ⟨known, member, sameKey, follows⟩ := chain.linked newer key older same
    exact ⟨known, mem_append_left _ member, sameKey, follows⟩
  pendingStored known isPending := by
    cases isPending
    exact mem_append_right _ (mem_singleton_self _)
  pendingFollows known isPending := by
    cases isPending
    exact admits.follows
  pendingUncommitted known isPending := by
    cases isPending
    intro committed
    obtain ⟨stored, member, sameKey⟩ := chain.committed_stored committed
    exact admits.newKey (sameKey ▸ mem_map_of_mem member)

def promote (item : α) (isPending : chain.pending = some item) : HeadChain keys where
  items := chain.items
  commits := keys.keyOf item :: chain.commits
  pending := none
  distinctKeys := chain.distinctKeys
  distinctOwners := chain.distinctOwners
  distinctCommits := nodup_cons.mpr ⟨chain.pendingUncommitted item isPending, chain.distinctCommits⟩
  linked newer key older same := by
    cases newer with
    | nil =>
      obtain ⟨rfl, rfl⟩ := cons.inj same
      exact ⟨item, chain.pendingStored item isPending, rfl, chain.pendingFollows item isPending⟩
    | cons newest newer => exact chain.linked newer key older (cons.inj same).2
  pendingStored _ known := by cases known
  pendingFollows _ known := by cases known
  pendingUncommitted _ known := by cases known

theorem previous_ne_head (member : item ∈ chain.items)
    (committed : keys.keyOf item ∈ chain.commits) : keys.previous item ≠ chain.commits.head? := by
  obtain ⟨newer, older, same⟩ := append_of_mem committed
  obtain ⟨linkedItem, linkedMember, sameKey, follows⟩ := chain.linked newer _ older same
  have isItem := inj_on_of_nodup_map chain.distinctKeys linkedMember member sameKey
  rw [isItem] at follows
  intro atHead
  rw [follows, same] at atHead
  have distinct := chain.distinctCommits
  rw [same, nodup_append] at distinct
  obtain ⟨_, olderDistinct, apart⟩ := distinct
  cases newer with
  | nil =>
    have head : keys.keyOf item ∈ older := mem_of_head? atHead
    exact (nodup_cons.mp olderDistinct).1 head
  | cons newest newer =>
    have head : newest ∈ older := mem_of_head? atHead
    exact apart newest mem_cons_self newest (mem_cons_of_mem _ head) rfl

/-- The item is pending, or it has been committed. -/
def Settled (item : α) : Prop := item ∈ chain.items ∧ (chain.pending = some item ∨ keys.keyOf item ∈ chain.commits)

inductive Step : HeadChain keys → HeadChain keys → Prop where
  | stay (chain : HeadChain keys) : Step chain chain
  | stage (chain : HeadChain keys) (item : α) (admits : chain.Admits item) : Step chain (chain.stage item admits)
  | promote (chain : HeadChain keys) (item : α) (isPending : chain.pending = some item) :
      Step chain (chain.promote item isPending)

variable {chain} {next : HeadChain keys}

theorem Step.items_stay (step : Step chain next) : chain.items <+: next.items := by
  cases step with
  | stay | promote _ _ => exact prefix_rfl
  | stage item admits => exact prefix_append _ _

theorem Step.settled (step : Step chain next) (settled : chain.Settled item) :
    next.Settled item := by
  obtain ⟨member, place⟩ := settled
  refine ⟨step.items_stay.subset member, ?_⟩
  cases step with
  | stay => exact place
  | stage other admits =>
    rcases place with isPending | committed
    · rw [admits.unpended] at isPending
      cases isPending
    · exact .inr committed
  | promote other isOther =>
    rcases place with isPending | committed
    · rw [isOther] at isPending
      cases isPending
      exact .inr mem_cons_self
    · exact .inr (mem_cons_of_mem _ committed)

def Reaches (chain next : HeadChain keys) : Prop := Relation.ReflTransGen Step chain next

theorem Reaches.items_stay (reaches : Reaches chain next) : chain.items <+: next.items := by
  induction reaches with
  | refl => exact prefix_rfl
  | tail _ step ih => exact ih.trans step.items_stay

theorem Reaches.settled (reaches : Reaches chain next) (settled : chain.Settled item) :
    next.Settled item := by
  induction reaches with
  | refl => exact settled
  | tail _ step ih => exact step.settled ih

/-- What follows an item that is settled: it is the pending one, or the head does not let it
follow again. -/
theorem Settled.cases (settled : chain.Settled item) :
    chain.pending = some item ∨ keys.keyOf item ∈ chain.commits ∧ keys.previous item ≠ chain.commits.head? := by
  obtain ⟨member, isPending | committed⟩ := settled
  · exact .inl isPending
  · exact .inr ⟨committed, chain.previous_ne_head member committed⟩

theorem Step.commits (step : Step chain next) :
    next.commits = chain.commits ∨ ∃ key, next.commits = key :: chain.commits ∧ chain.commits.head? ≠ some key := by
  cases step with
  | stay | stage _ _ => exact .inl rfl
  | promote item isPending =>
    refine .inr ⟨keys.keyOf item, rfl, ?_⟩
    intro atHead
    exact chain.pendingUncommitted item isPending (mem_of_head? atHead)

end HeadChain

end Cast.Foundation
