import Ginkgo.Lib.Replay
import Ginkgo.Lib.Vectors
import Mathlib.Data.List.Pairwise

/-!
# The ledger of a write-back cache

What a write-back cache is for, without its tables: every block is absent, clean or dirty,
writes are numbered as they are accepted, and a ticket asks for the durability of all writes
up to its number.  The ledger may forget and fill clean blocks at will; a dirty block is
written to the disk no later than the oldest ticket allows.
-/

namespace Ginkgo.Kernel.Writeback

open Ginkgo.Lib List Function

variable {β : Type}

inductive Residence (β : Type)
  | absent
  | clean (data : β)
  | dirty (data : β) (first last : Nat)

structure Ledger (β : Type) where
  residence : Nat → Residence β
  disk : Nat → β
  writes : List (Nat × β)
  tickets : List Nat
  durable : Nat

namespace Ledger

def requested (l : Ledger β) : Nat := l.tickets.getLastD l.durable

/-- The block has not reached the disk; `first` is the number of its oldest write. -/
def Dirty (l : Ledger β) (block : Nat) (data : β) (first last : Nat) : Prop :=
  l.residence block = .dirty data first last

/-- The number that a write of the block is filed under. -/
def firstOf (l : Ledger β) (block : Nat) : Nat :=
  match l.residence block with
  | .dirty _ first _ => first
  | _ => l.writes.length + 1

def accept (l : Ledger β) (block : Nat) (data : β) : Ledger β :=
  { l with
    residence := Function.update l.residence block
      (.dirty data (l.firstOf block) (l.writes.length + 1))
    writes := l.writes ++ [(block, data)] }

/-- These blocks may be written before the oldest ticket is flushed. -/
def Due (l : Ledger β) (run : List (Nat × β)) : Prop :=
  ∀ block data, (block, data) ∈ run →
    ∃ first last, l.Dirty block data first last ∧ ∀ ticket ∈ l.tickets.head?, first ≤ ticket

/-! ## What every ledger keeps -/

/-- The disk holds the writes up to the number, but for blocks that are due before it. -/
def Reached (origin : Nat → β) (l : Ledger β) (ticket : Nat) : Prop :=
  ∀ block, (∃ data first last, l.Dirty block data first last ∧ first ≤ ticket) ∨
    l.disk block = replay origin (l.writes.take ticket) block

/-- After every ticket but the last there is a block that waits for the next one. -/
structure Owes (l : Ledger β) : Prop where
  next : ∀ before ticket ticket' after, l.tickets = before ++ ticket :: ticket' :: after →
    ∃ block data first last, l.Dirty block data first last ∧ ticket < first ∧ first ≤ ticket'
  last : l.tickets ≠ [] → l.requested < l.writes.length →
    ∃ block data first last, l.Dirty block data first last ∧ l.requested < first

structure Sound (origin : Nat → β) (l : Ledger β) : Prop where
  clean : ∀ block data, l.residence block = .clean data → data = replay origin l.writes block
  dirty : ∀ block data first last, l.Dirty block data first last →
    data = replay origin l.writes block
  backed : ∀ block, (∀ data first last, ¬l.Dirty block data first last) →
    l.disk block = replay origin l.writes block
  numbered : ∀ block data first last, l.Dirty block data first last →
    first ≤ last ∧ last ≤ l.writes.length ∧ ∀ write ∈ l.writes.drop last, write.1 ≠ block
  ordered : (l.durable :: l.tickets).Pairwise (· < ·)
  counted : l.requested ≤ l.writes.length
  settled : ∀ ticket ∈ l.tickets, ∀ block data first last, l.Dirty block data first last →
    first ≤ ticket → last ≤ ticket
  reached : ∀ ticket ∈ l.tickets, l.Reached origin ticket
  owes : l.Owes

variable {origin : Nat → β} {l : Ledger β} {ticket block first last : Nat} {data : β}
  {run : List (Nat × β)}

theorem requested_eq (l : Ledger β) (hne : l.tickets ≠ []) :
    l.requested = l.tickets.getLast hne := by
  unfold requested
  rw [getLastD_eq_getLast?, getLast?_eq_some_getLast hne, Option.getD_some]

section

variable (h : l.Sound origin)
include h

theorem Sound.le_requested (hmem : ticket ∈ l.tickets) : ticket ≤ l.requested := by
  have hne := ne_nil_of_mem hmem
  rw [l.requested_eq hne]
  have hord := (pairwise_cons.mp h.ordered).2
  rw [← dropLast_concat_getLast hne] at hmem hord
  rcases mem_append.mp hmem with hmem | hmem
  · exact Nat.le_of_lt ((pairwise_append.mp hord).2.2 ticket hmem _ mem_cons_self)
  · exact Nat.le_of_eq (mem_singleton.mp hmem)

theorem Sound.le_length (hmem : ticket ∈ l.tickets) :
    ticket ≤ l.writes.length := Nat.le_trans (h.le_requested hmem) h.counted

theorem Sound.amend {residence : Residence β}
    (hblock : ∀ data first last, ¬l.Dirty block data first last)
    (hresid : ∀ data first last, residence ≠ .dirty data first last)
    (hclean : ∀ data, residence = .clean data → data = replay origin l.writes block) :
    Sound origin
      ({ l with residence := Function.update l.residence block residence } : Ledger β) := by
  have hdirty : { l with residence := Function.update l.residence block residence }.Dirty =
    l.Dirty := by
    funext block' data first last
    by_cases heq : block' = block
    · subst heq
      have hnot : l.residence block' ≠ _ := hblock data first last
      simp [Dirty, hresid, hnot]
    · simp [Dirty, heq]
  refine ⟨fun block' data hdata => ?_, ?_, ?_, ?_, h.ordered, h.counted, ?_, ?_, ?_, ?_⟩
  · by_cases heq : block' = block
    · subst heq
      exact hclean data (by simpa using hdata)
    · exact h.clean block' data (by simpa [heq] using hdata)
  · rw [hdirty]
    exact h.dirty
  · rw [hdirty]
    exact h.backed
  · rw [hdirty]
    exact h.numbered
  · rw [hdirty]
    exact h.settled
  · unfold Reached
    rw [hdirty]
    exact h.reached
  · rw [hdirty]
    exact h.owes.next
  · rw [hdirty]
    exact h.owes.last

theorem Sound.drop (hblock : l.residence block = .clean data) :
    ({ l with residence := Function.update l.residence block .absent } : Ledger β).Sound origin :=
  h.amend (by simp [Dirty, hblock]) nofun nofun

theorem Sound.fill (hblock : l.residence block = .absent) :
    ({ l with residence := Function.update l.residence block (.clean (l.disk block)) } :
      Ledger β).Sound origin := by
  have hnot : ∀ data first last, ¬l.Dirty block data first last := by simp [Dirty, hblock]
  refine h.amend hnot nofun fun data hdata => ?_
  obtain rfl := Residence.clean.inj hdata
  exact h.backed block hnot

end

/-! ### Accepting a write -/

theorem dirty_accept_self (l : Ledger β) (block : Nat) (data : β) :
    (l.accept block data).Dirty block data (l.firstOf block) (l.writes.length + 1) :=
  update_self _ _ _

theorem residence_accept_of_ne {block' : Nat} (hne : block' ≠ block) :
    (l.accept block data).residence block' = l.residence block' :=
  update_of_ne hne _ _

theorem dirty_accept_of_ne {block' : Nat} {data' : β} (hne : block' ≠ block) :
    (l.accept block data).Dirty block' data' first last ↔ l.Dirty block' data' first last := by
  unfold Dirty
  rw [residence_accept_of_ne hne]

theorem dirty_unique {data' : β} {first' last' : Nat} (h : l.Dirty block data first last)
    (h' : l.Dirty block data' first' last') : data = data' ∧ first = first' ∧ last = last' :=
  Residence.dirty.inj (h.symm.trans h')

theorem firstOf_eq (h : l.Dirty block data first last) : l.firstOf block = first := by
  unfold firstOf
  rw [show l.residence block = _ from h]

theorem firstOf_cases (l : Ledger β) (block : Nat) :
    (∃ data first last, l.Dirty block data first last ∧ l.firstOf block = first) ∨
      (∀ data first last, ¬l.Dirty block data first last) ∧
        l.firstOf block = l.writes.length + 1 := by
  unfold firstOf Dirty
  cases l.residence block with
  | absent | clean data => exact .inr ⟨nofun, rfl⟩
  | dirty data first last => exact .inl ⟨data, first, last, rfl, rfl⟩

theorem dirty_accept (block : Nat) (data : β) {block' : Nat} {data' : β}
    (h : l.Dirty block' data' first last) :
    ∃ data'' last', (l.accept block data).Dirty block' data'' first last' := by
  by_cases heq : block' = block
  · subst heq
    have hself := l.dirty_accept_self block' data
    rw [firstOf_eq h] at hself
    exact ⟨data, _, hself⟩
  · exact ⟨data', last, (dirty_accept_of_ne heq).mpr h⟩

variable (h : l.Sound origin)
include h

theorem Sound.accept (block : Nat) (data : β)
    (hopen : ∀ old first last, l.Dirty block old first last →
      l.tickets = [] ∨ l.requested < first) : (l.accept block data).Sound origin := by
  have hwrites : replay origin (l.accept block data).writes =
      update (replay origin l.writes) block data := replay_concat ..
  have hlen : (l.accept block data).writes.length = l.writes.length + 1 := by
    simp [Ledger.accept]
  -- a ticket that is pending lies below the number of the block
  have hafter : ∀ ticket ∈ l.tickets, ticket < l.firstOf block := by
    intro ticket hmem
    rcases l.firstOf_cases block with ⟨old, first, last, hd, heq⟩ | ⟨-, heq⟩
    · rcases hopen old first last hd with hnil | hlt
      · rw [hnil] at hmem
        cases hmem
      · have hle := h.le_requested hmem
        omega
    · have hle := h.le_length hmem
      omega
  refine ⟨fun block' data' hclean => ?_, fun block' data' first last hd => ?_,
    fun block' hclean => ?_, fun block' data' first last hd => ?_, h.ordered, ?_,
    fun ticket hmem block' data' first last hd hle => ?_, fun ticket hmem block' => ?_, ?_, ?_⟩
  · by_cases heq : block' = block
    · subst heq
      have hself := l.dirty_accept_self block' data
      rw [Dirty, hclean] at hself
      cases hself
    · rw [residence_accept_of_ne heq] at hclean
      rw [hwrites, update_of_ne heq]
      exact h.clean block' data' hclean
  · rw [hwrites]
    by_cases heq : block' = block
    · subst heq
      obtain ⟨rfl, -, -⟩ := dirty_unique (l.dirty_accept_self block' data) hd
      rw [update_self]
    · rw [update_of_ne heq]
      exact h.dirty block' data' first last ((dirty_accept_of_ne heq).mp hd)
  · have hne : block' ≠ block := by
      rintro rfl
      exact hclean _ _ _ (l.dirty_accept_self block' data)
    rw [hwrites, update_of_ne hne]
    exact h.backed block' fun data' first last hd =>
      hclean data' first last ((dirty_accept_of_ne hne).mpr hd)
  · rw [hlen]
    by_cases heq : block' = block
    · subst heq
      obtain ⟨-, rfl, rfl⟩ := dirty_unique (l.dirty_accept_self block' data) hd
      refine ⟨?_, Nat.le_refl _, fun write hmem => ?_⟩
      · rcases l.firstOf_cases block' with ⟨old, first, last, hd, heq⟩ | ⟨-, heq⟩
        · have hnumbered := h.numbered block' old first last hd
          omega
        · omega
      · rw [drop_of_length_le (Nat.le_of_eq hlen)] at hmem
        cases hmem
    · obtain ⟨hle, hlast, hlater⟩ :=
        h.numbered block' data' first last ((dirty_accept_of_ne heq).mp hd)
      refine ⟨hle, by omega, fun write hmem => ?_⟩
      rcases mem_append.mp (drop_append_of_le_length hlast ▸ hmem) with hmem | hmem
      · exact hlater write hmem
      · rw [mem_singleton.mp hmem]
        exact Ne.symm heq
  · rw [hlen]
    exact Nat.le_succ_of_le h.counted
  · by_cases heq : block' = block
    · subst heq
      obtain ⟨-, rfl, rfl⟩ := dirty_unique (l.dirty_accept_self block' data) hd
      exact absurd hle (Nat.not_le.mpr (hafter ticket hmem))
    · exact h.settled ticket hmem block' data' first last ((dirty_accept_of_ne heq).mp hd) hle
  · have htake : (l.accept block data).writes.take ticket = l.writes.take ticket :=
      take_append_of_le_length (h.le_length hmem)
    rw [htake]
    rcases h.reached ticket hmem block' with ⟨data', first, last, hd, hle⟩ | hdisk
    · obtain ⟨data'', last', hd'⟩ := dirty_accept block data hd
      exact .inl ⟨data'', first, last', hd', hle⟩
    · exact .inr hdisk
  · intro before ticket ticket' after heq
    obtain ⟨block', data', first, last, hd, hfirst⟩ := h.owes.next before ticket ticket' after heq
    obtain ⟨data'', last', hd'⟩ := dirty_accept block data hd
    exact ⟨block', data'', first, last', hd', hfirst⟩
  · intro hne _
    have hmem := getLast_mem hne
    refine ⟨block, data, _, _, l.dirty_accept_self block data, ?_⟩
    rw [requested_eq _ hne]
    exact hafter _ hmem

theorem Sound.head_le (hmem : ticket ∈ l.tickets) :
    ∃ oldest ∈ l.tickets.head?, oldest ≤ ticket := by
  have hord := (pairwise_cons.mp h.ordered).2
  cases htkts : l.tickets with
  | nil =>
    rw [htkts] at hmem
    cases hmem
  | cons oldest rest =>
    rw [htkts] at hmem hord
    refine ⟨oldest, rfl, ?_⟩
    rcases mem_cons.mp hmem with rfl | hmem
    · exact Nat.le_refl _
    · exact Nat.le_of_lt ((pairwise_cons.mp hord).1 ticket hmem)

theorem Sound.due (hdue : l.Due run) (hmem : (block, data) ∈ run) :
    ∃ first last, l.Dirty block data first last ∧ ∀ ticket ∈ l.tickets, first ≤ ticket := by
  obtain ⟨first, last, hd, hfirst⟩ := hdue block data hmem
  refine ⟨first, last, hd, fun ticket htkt => ?_⟩
  obtain ⟨oldest, holdest, hle⟩ := h.head_le htkt
  exact Nat.le_trans (hfirst oldest holdest) hle

theorem Sound.replay_take (hd : l.Dirty block data first last)
    (hmem : ticket ∈ l.tickets) (hle : first ≤ ticket) :
    data = replay origin (l.writes.take ticket) block := by
  obtain ⟨-, -, hlater⟩ := h.numbered block data first last hd
  have hlast := h.settled ticket hmem block data first last hd hle
  rw [h.dirty block data first last hd]
  refine (Lib.replay_take fun write hwrite => hlater write ?_).symm
  rw [show ticket = last + (ticket - last) by omega, ← drop_drop] at hwrite
  exact mem_of_mem_drop hwrite

theorem Sound.writeBack (hdue : l.Due run) : ({ l with
        residence := replay l.residence (run.map fun write => (write.1, .clean write.2))
        disk := replay l.disk run } : Ledger β).Sound origin := by
  generalize hreplay : replay l.residence
    (run.map fun write => (write.1, .clean write.2)) = residence
  have hresid : ∀ block, (∃ data, (block, data) ∈ run ∧ residence block = .clean data) ∨
      (∀ write ∈ run, write.1 ≠ block) ∧ residence block = l.residence block := by
    intro block
    rw [← hreplay]
    rcases replay_cases l.residence (run.map fun write => (write.1, .clean write.2)) block with
      ⟨value, hmem, hvalue⟩ | ⟨hnone, hvalue⟩
    · obtain ⟨⟨block', data⟩, hrun, heq⟩ := mem_map.mp hmem
      obtain ⟨rfl, rfl⟩ := Prod.mk.inj heq
      exact .inl ⟨data, hrun, hvalue⟩
    · exact .inr ⟨fun write hwrite => hnone _ (mem_map_of_mem hwrite), hvalue⟩
  -- the disk gets what the cache holds
  have hdisk : ∀ block data, (block, data) ∈ run → replay l.disk run block = data := by
    intro block data hmem
    obtain ⟨first, last, hd, -⟩ := hdue block data hmem
    rcases replay_cases l.disk run block with ⟨value, hvalue, heq⟩ | ⟨hnone, -⟩
    · obtain ⟨first', last', hd', -⟩ := hdue block value hvalue
      rw [heq]
      exact (dirty_unique hd' hd).1
    · exact absurd rfl (hnone _ hmem)
  have hkept : ∀ block data first last, l.Dirty block data first last →
      (∃ oldest ∈ l.tickets, oldest < first) → residence block = .dirty data first last := by
    intro block data first last hd ⟨oldest, holdest, hlt⟩
    rcases hresid block with ⟨data', hmem, -⟩ | ⟨-, heq⟩
    · obtain ⟨first', last', hd', hle⟩ := h.due hdue hmem
      obtain ⟨-, rfl, -⟩ := dirty_unique hd hd'
      exact absurd (hle oldest holdest) (Nat.not_le.mpr hlt)
    · exact heq.trans hd
  have hold : ∀ block data first last, residence block = .dirty data first last →
      l.Dirty block data first last := by
    intro block data first last hd
    rcases hresid block with ⟨data', -, heq⟩ | ⟨-, heq⟩
    · cases heq.symm.trans hd
    · exact heq.symm.trans hd
  refine ⟨fun block data hclean => ?_, fun _ _ _ _ hd => h.dirty _ _ _ _ (hold _ _ _ _ hd),
    fun block hclean => ?_, fun _ _ _ _ hd => h.numbered _ _ _ _ (hold _ _ _ _ hd), h.ordered,
    h.counted, fun ticket htkt _ _ _ _ hd => h.settled ticket htkt _ _ _ _ (hold _ _ _ _ hd),
    fun ticket htkt block => ?_, ?_, ?_⟩
  · rcases hresid block with ⟨data', hmem, heq⟩ | ⟨-, heq⟩
    · obtain rfl := Residence.clean.inj (hclean.symm.trans heq)
      obtain ⟨first, last, hd, -⟩ := hdue block data hmem
      exact h.dirty block data first last hd
    · exact h.clean block data (heq.symm.trans hclean)
  · rcases hresid block with ⟨data', hmem, -⟩ | ⟨hnone, heq⟩
    · obtain ⟨first, last, hd, -⟩ := hdue block data' hmem
      exact (hdisk block data' hmem).trans (h.dirty block data' first last hd)
    · refine (replay_of_forall_ne hnone).trans (h.backed block fun data first last hd => ?_)
      exact hclean data first last (heq.trans hd)
  · rcases hresid block with ⟨data', hmem, -⟩ | ⟨hnone, heq⟩
    · obtain ⟨first, last, hd, hle⟩ := h.due hdue hmem
      exact .inr ((hdisk block data' hmem).trans (h.replay_take hd htkt (hle ticket htkt)))
    · rcases h.reached ticket htkt block with ⟨data, first, last, hd, hle⟩ | hreached
      · exact .inl ⟨data, first, last, heq.trans hd, hle⟩
      · exact .inr ((replay_of_forall_ne hnone).trans hreached)
  · intro before ticket ticket' after heq
    obtain ⟨block, data, first, last, hd, hfirst⟩ := h.owes.next before ticket ticket' after heq
    have hmem : ticket ∈ l.tickets := by
      rw [show l.tickets = _ from heq]
      simp
    exact ⟨block, data, first, last, hkept block data first last hd
      ⟨ticket, hmem, hfirst.1⟩, hfirst⟩
  · intro hne hlt
    obtain ⟨block, data, first, last, hd, hfirst⟩ := h.owes.last hne hlt
    refine ⟨block, data, first, last, hkept block data first last hd ⟨_, getLast_mem hne, ?_⟩,
      hfirst⟩
    rw [requested_eq l hne] at hfirst
    exact hfirst

theorem Sound.spoil (hdue : l.Due run) {disk : Nat → β}
    (hdisk : ∀ block, (∀ write ∈ run, write.1 ≠ block) → disk block = l.disk block) :
    ({ l with disk := disk } : Ledger β).Sound origin where
  clean := h.clean
  dirty := h.dirty
  backed block hclean := by
    refine (hdisk block ?_).trans (h.backed block hclean)
    rintro ⟨block', data⟩ hmem rfl
    obtain ⟨first, last, hd, -⟩ := hdue block' data hmem
    exact hclean data first last hd
  numbered := h.numbered
  ordered := h.ordered
  counted := h.counted
  settled := h.settled
  reached ticket htkt block := by
    by_cases hrun : ∀ write ∈ run, write.1 ≠ block
    · rcases h.reached ticket htkt block with hd | hreached
      · exact .inl hd
      · exact .inr ((hdisk block hrun).trans hreached)
    · push Not at hrun
      obtain ⟨⟨block', data⟩, hmem, rfl⟩ := hrun
      obtain ⟨first, last, hd, hle⟩ := h.due hdue hmem
      exact .inl ⟨data, first, last, hd, hle ticket htkt⟩
  owes := ⟨h.owes.next, h.owes.last⟩

theorem Sound.request (hlt : l.requested < l.writes.length) :
    ({ l with tickets := l.tickets ++ [l.writes.length] } : Ledger β).Sound origin := by
  have hreqd : { l with tickets := l.tickets ++ [l.writes.length] }.requested =
      l.writes.length := getLastD_concat
  have hbelow : ∀ ticket ∈ l.durable :: l.tickets, ticket < l.writes.length := by
    intro ticket hmem
    refine Nat.lt_of_le_of_lt ?_ hlt
    rcases mem_cons.mp hmem with rfl | hmem
    · by_cases hnil : l.tickets = []
      · unfold requested
        rw [hnil]
        exact Nat.le_refl _
      · have hlast := getLast_mem hnil
        rw [requested_eq l hnil]
        exact Nat.le_of_lt ((pairwise_cons.mp h.ordered).1 _ hlast)
    · exact h.le_requested hmem
  refine ⟨h.clean, h.dirty, h.backed, h.numbered, ?_, Nat.le_of_eq hreqd,
    fun ticket htkt block data first last hd hle => ?_, fun ticket htkt block => ?_,
    ⟨fun before ticket ticket' after heq => ?_, fun _ hcontra => ?_⟩⟩
  · refine pairwise_append.mpr ⟨h.ordered, pairwise_singleton _ _, ?_⟩
    intro ticket hmem ticket' hmem'
    rw [mem_singleton.mp hmem']
    exact hbelow ticket hmem
  · rcases mem_append.mp htkt with htkt | htkt
    · exact h.settled ticket htkt block data first last hd hle
    · rw [mem_singleton.mp htkt]
      exact (h.numbered block data first last hd).2.1
  · rcases mem_append.mp htkt with htkt | htkt
    · exact h.reached ticket htkt block
    · rw [mem_singleton.mp htkt]
      change _ ∨ _ = replay origin (l.writes.take l.writes.length) block
      rw [take_length]
      by_cases hclean : ∀ data first last, ¬l.Dirty block data first last
      · exact .inr (h.backed block hclean)
      · push Not at hclean
        obtain ⟨data, first, last, hd⟩ := hclean
        obtain ⟨hfirst, hlast, -⟩ := h.numbered block data first last hd
        exact .inl ⟨data, first, last, hd, Nat.le_trans hfirst hlast⟩
  · have hsplit : l.tickets ++ [l.writes.length] = (before ++ [ticket]) ++ ticket' :: after := by
      rw [append_assoc]
      exact heq
    rcases concat_eq_append_cons hsplit with ⟨rfl, htkts, rfl⟩ | ⟨rest, rfl, htkts⟩
    · have hne : l.tickets ≠ [] := by simp [← htkts]
      obtain ⟨block, data, first, last, hd, hfirst⟩ := h.owes.last hne hlt
      obtain ⟨hle, hle', -⟩ := h.numbered block data first last hd
      refine ⟨block, data, first, last, hd, ?_, Nat.le_trans hle hle'⟩
      have htkt : l.requested = ticket := by
        unfold requested
        rw [← htkts]
        exact getLastD_concat
      rw [← htkt]
      exact hfirst
    · rw [append_assoc] at htkts
      exact h.owes.next before ticket ticket' rest htkts
  · rw [hreqd] at hcontra
    exact absurd hcontra (Nat.lt_irrefl _)

theorem Sound.flush {rest : List Nat} (htkts : l.tickets = ticket :: rest) :
    ({ l with tickets := rest, durable := ticket } : Ledger β).Sound origin := by
  have hreqd : { l with tickets := rest, durable := ticket }.requested =
      l.requested := by
    unfold requested
    rw [htkts, getLastD_cons]
  have hmem : ∀ ticket' ∈ rest, ticket' ∈ l.tickets := fun ticket' hmem => by
    rw [htkts]
    exact mem_cons_of_mem _ hmem
  refine ⟨h.clean, h.dirty, h.backed, h.numbered, ?_, ?_,
    fun ticket' htkt' => h.settled ticket' (hmem ticket' htkt'),
    fun ticket' htkt' => h.reached ticket' (hmem ticket' htkt'),
    ⟨fun before ticket1 ticket2 after heq => ?_, fun hne hlt => ?_⟩⟩
  · have hord := (pairwise_cons.mp h.ordered).2
    rw [htkts] at hord
    exact hord
  · rw [hreqd]
    exact h.counted
  · refine h.owes.next (ticket :: before) ticket1 ticket2 after ?_
    rw [htkts, show rest = _ from heq]
    rfl
  · rw [hreqd] at hlt ⊢
    refine h.owes.last ?_ hlt
    rw [htkts]
    exact cons_ne_nil _ _

/-- A ticket that is flushed finds exactly its writes on the disk. -/
theorem Sound.disk_at_flush {rest : List Nat} (htkts : l.tickets = ticket :: rest)
    (hready : ∀ block data first last, l.Dirty block data first last → ticket < first) :
    l.disk = replay origin (l.writes.take ticket) := by
  funext block
  rcases h.reached ticket (htkts ▸ mem_cons_self) block with
    ⟨data, first, last, hd, hle⟩ | hdisk
  · exact absurd hle (Nat.not_le.mpr (hready block data first last hd))
  · exact hdisk

end Ledger

end Ginkgo.Kernel.Writeback
