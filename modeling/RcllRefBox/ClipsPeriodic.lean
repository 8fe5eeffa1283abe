import Mathlib.Data.List.Basic
import Mathlib.Algebra.Order.Ring.Nat

/-! # Releasing message facts

`clips_msg_facts_` maps the index of a CLIPS fact, a `long int`, to the fact that holds a
protobuf message. `LLSFRefBox::handle_clips_periodic` frees the messages that only the map
still references: it pushes the key of every fact whose reference count is 1 on a
`std::queue<int>`, then for each queued index takes `clips_msg_facts_[index]`, deletes the
message in the fact's `ptr` slot and erases the entry.

The queue holds `int`, narrower than the key, so a key outside the `int` range is queued as
another number (`intOfLong`). While every key to be erased fits in an `int`, the handler
removes exactly the facts with reference count 1 and deletes each of their messages once
(`handleClipsPeriodic_of_int_keys`). A key past `2^31 - 1` comes back as a different index:
`operator[]` then inserts a null pointer under it and the handler dereferences it, or it
erases another entry, whose fact is still referenced (`periodic_narrows_fact_index`).

Nothing else in the repository inserts into `clips_msg_facts_`, so in the program as it
stands the handler only ever sees the empty map. The narrowing is a defect of the function
for the maps its type admits, latent until entries are inserted.
-/

namespace RcllRefBox

structure MsgFact where
  refcount : Nat
  ptr : Nat
  deriving DecidableEq, Repr

def InInt32 (v : Int) : Prop := -2147483648 ≤ v ∧ v ≤ 2147483647

/-- The `int` a `long int` key becomes when pushed on `std::queue<int>`: its value modulo
`2^32`, as a two's-complement `int`. -/
def intOfLong (key : Int) : Int := key.bmod (2 ^ 32)

theorem intOfLong_of_inInt32 {key : Int} (fits : InInt32 key) : intOfLong key = key := by
  unfold intOfLong InInt32 at *
  rw [Int.bmod_def]
  split <;> omega

/-- `clips_msg_facts_`: its entries in increasing key order, as a `std::map` iterates them;
`none` is a null `CLIPS::Fact::pointer`. -/
structure MsgFacts where
  entries : List (Int × Option MsgFact)
  ordered : entries.Pairwise (·.1 < ·.1)

def insertEntry (key : Int) (value : Option MsgFact) :
    List (Int × Option MsgFact) → List (Int × Option MsgFact)
  | [] => [(key, value)]
  | entry :: rest =>
    if key < entry.1 then (key, value) :: entry :: rest else entry :: insertEntry key value rest

theorem mem_insertEntry {key : Int} {value : Option MsgFact} {entry : Int × Option MsgFact} :
    ∀ {entries : List (Int × Option MsgFact)}, entry ∈ insertEntry key value entries →
      entry = (key, value) ∨ entry ∈ entries
  | [], mem => by simpa [insertEntry] using mem
  | first :: rest, mem => by
    unfold insertEntry at mem
    split at mem
    · simpa using mem
    · rcases List.mem_cons.1 mem with rfl | later
      · exact .inr (.head _)
      · exact (mem_insertEntry later).imp_right (.tail _)

theorem insertEntry_ordered {key : Int} {value : Option MsgFact} :
    ∀ {entries : List (Int × Option MsgFact)}, entries.Pairwise (·.1 < ·.1) →
      (∀ entry ∈ entries, entry.1 ≠ key) → (insertEntry key value entries).Pairwise (·.1 < ·.1)
  | [], _, _ => by simp [insertEntry]
  | first :: rest, ordered, absent => by
    unfold insertEntry
    split
    · rename_i before
      refine .cons (fun entry mem => ?_) ordered
      rcases List.mem_cons.1 mem with rfl | later
      · exact before
      · exact Int.lt_trans before (List.rel_of_pairwise_cons ordered later)
    · rename_i after
      have greater : first.1 < key := by
        have := absent first (.head _)
        omega
      refine .cons (fun entry mem => ?_) (insertEntry_ordered ordered.of_cons
        fun entry mem => absent entry (.tail _ mem))
      rcases mem_insertEntry mem with rfl | later
      · exact greater
      · exact List.rel_of_pairwise_cons ordered later

def MsgFacts.find? (facts : MsgFacts) (key : Int) : Option (Option MsgFact) :=
  (facts.entries.find? (·.1 == key)).map (·.2)

theorem MsgFacts.find?_eq_none {facts : MsgFacts} {key : Int} (absent : facts.find? key = none) :
    ∀ entry ∈ facts.entries, entry.1 ≠ key := by
  simpa [MsgFacts.find?, List.find?_eq_none] using absent

/-- `clips_msg_facts_[key]`: the fact pointer under `key`, after inserting a null one if the
key was absent. -/
def MsgFacts.index (facts : MsgFacts) (key : Int) : MsgFacts × Option MsgFact :=
  match found : facts.find? key with
  | some value => (facts, value)
  | none => (⟨insertEntry key none facts.entries,
      insertEntry_ordered facts.ordered (MsgFacts.find?_eq_none found)⟩, none)

def MsgFacts.erase (facts : MsgFacts) (key : Int) : MsgFacts :=
  ⟨facts.entries.filter (·.1 != key), facts.ordered.filter _⟩

/-- How `handle_clips_periodic` ends: with the map and the message pointers it deleted, in
order, or by dereferencing a null fact pointer, with the map at that point. -/
inductive Periodic
  | done (facts : MsgFacts) (deleted : List Nat)
  | nullDereference (facts : MsgFacts)

def Periodic.facts : Periodic → MsgFacts
  | .done facts _ => facts
  | .nullDereference facts => facts

def Periodic.deleted : Periodic → Option (List Nat)
  | .done _ deleted => some deleted
  | .nullDereference _ => none

/-- The first loop: the keys of the facts with reference count 1, in key order, as pushed on
the `std::queue<int>`; `none` at a null pointer, which `f->second->refcount()` dereferences. -/
def collectErasable : List (Int × Option MsgFact) → Option (List Int)
  | [] => some []
  | (_, none) :: _ => none
  | (key, some fact) :: rest =>
    (collectErasable rest).map fun queue =>
      if fact.refcount = 1 then intOfLong key :: queue else queue

/-- The second loop: for each queued index, `clips_msg_facts_[index]`, the message in its
`ptr` slot deleted, and the entry erased. -/
def eraseQueued (facts : MsgFacts) (deleted : List Nat) : List Int → Periodic
  | [] => .done facts deleted
  | index :: queue =>
    match facts.index index with
    | (facts, none) => .nullDereference facts
    | (facts, some fact) => eraseQueued (facts.erase index) (deleted ++ [fact.ptr]) queue

def handleClipsPeriodic (facts : MsgFacts) : Periodic :=
  match collectErasable facts.entries with
  | none => .nullDereference facts
  | some queue => eraseQueued facts [] queue

/-! ## The map's operations -/

theorem find?_key_of_mem {key : Int} {value : Option MsgFact} :
    ∀ {entries : List (Int × Option MsgFact)}, entries.Pairwise (·.1 < ·.1) →
      (key, value) ∈ entries → (entries.find? (·.1 == key)).map (·.2) = some value
  | [], _, mem => absurd mem (List.not_mem_nil _)
  | first :: rest, ordered, mem => by
    rcases List.mem_cons.1 mem with rfl | later
    · simp
    · have before : first.1 < key := List.rel_of_pairwise_cons ordered later
      have differs : (first.1 == key) = false := by simp only [beq_eq_false_iff_ne]; omega
      simp only [List.find?_cons, differs]
      exact find?_key_of_mem ordered.of_cons later

theorem MsgFacts.find?_of_mem {facts : MsgFacts} {key : Int} {value : Option MsgFact}
    (mem : (key, value) ∈ facts.entries) : facts.find? key = some value :=
  find?_key_of_mem facts.ordered mem

theorem MsgFacts.index_of_mem {facts : MsgFacts} {key : Int} {value : Option MsgFact}
    (mem : (key, value) ∈ facts.entries) : facts.index key = (facts, value) := by
  have found := MsgFacts.find?_of_mem mem
  unfold MsgFacts.index
  split <;> simp_all

/-! ## When every erased key is an `int` -/

def erasableFacts (entries : List (Int × Option MsgFact)) : List (Int × MsgFact) :=
  entries.filterMap fun
    | (key, some fact) => if fact.refcount = 1 then some (key, fact) else none
    | (_, none) => none

theorem mem_erasableFacts {entries : List (Int × Option MsgFact)} {key : Int} {fact : MsgFact} :
    (key, fact) ∈ erasableFacts entries ↔ (key, some fact) ∈ entries ∧ fact.refcount = 1 := by
  simp only [erasableFacts, List.mem_filterMap]
  constructor
  · rintro ⟨⟨key', _ | fact'⟩, mem, found⟩
    · cases found
    · by_cases one : fact'.refcount = 1 <;> simp_all
  · rintro ⟨mem, one⟩
    exact ⟨_, mem, by simp [one]⟩

theorem erasableFacts_ordered {entries : List (Int × Option MsgFact)}
    (ordered : entries.Pairwise (·.1 < ·.1)) : (erasableFacts entries).Pairwise (·.1 < ·.1) := by
  refine ordered.filterMap _ fun first second before erased mem erased' mem' => ?_
  rcases first with ⟨_, _ | fact⟩ <;> rcases second with ⟨_, _ | fact'⟩ <;>
    simp only [Option.mem_def, reduceCtorEq, ite_eq_right_iff, Option.ite_none_right_eq_some,
      Option.some.injEq, false_implies, imp_false] at mem mem' ⊢
  rw [← mem.2, ← mem'.2]
  exact before

theorem MsgFacts.key_mem_erasable_iff {facts : MsgFacts} {key : Int} {fact : MsgFact}
    (mem : (key, some fact) ∈ facts.entries) :
    key ∈ (erasableFacts facts.entries).map (·.1) ↔ fact.refcount = 1 := by
  refine ⟨fun queued => ?_, fun one => List.mem_map_of_mem (·.1) (mem_erasableFacts.2 ⟨mem, one⟩)⟩
  obtain ⟨⟨_, other⟩, erased, rfl⟩ := List.mem_map.1 queued
  obtain ⟨present, counted⟩ := mem_erasableFacts.1 erased
  have same := (MsgFacts.find?_of_mem mem).symm.trans (MsgFacts.find?_of_mem present)
  simp only [Option.some.injEq] at same
  rwa [same]

/-- With no null pointer, the first loop queues the key of every fact with reference count 1,
narrowed to `int`. -/
theorem collectErasable_of_nonNull :
    ∀ {entries : List (Int × Option MsgFact)}, (∀ entry ∈ entries, entry.2.isSome) →
      collectErasable entries = some ((erasableFacts entries).map (intOfLong ·.1))
  | [], _ => rfl
  | (_, none) :: _, nonNull => absurd (nonNull _ (.head _)) (by simp)
  | (key, some fact) :: rest, nonNull => by
    rw [collectErasable, collectErasable_of_nonNull fun entry mem => nonNull entry (.tail _ mem)]
    by_cases one : fact.refcount = 1 <;> simp [erasableFacts, one]

/-- The second loop, on distinct keys that are all in the map: it deletes their messages in
queue order and erases exactly their entries. -/
theorem eraseQueued_of_mem :
    ∀ (erasable : List (Int × MsgFact)) (facts : MsgFacts) (deleted : List Nat),
      (erasable.map (·.1)).Nodup → (∀ entry ∈ erasable, (entry.1, some entry.2) ∈ facts.entries) →
      ∃ kept, eraseQueued facts deleted (erasable.map (·.1)) =
          .done kept (deleted ++ erasable.map (·.2.ptr)) ∧
        kept.entries = facts.entries.filter fun entry => entry.1 ∉ erasable.map (·.1)
  | [], facts, deleted, _, _ => ⟨facts, by simp [eraseQueued]⟩
  | (key, fact) :: rest, facts, deleted, distinct, present => by
    simp only [List.map_cons, List.nodup_cons] at distinct
    have stillPresent : ∀ entry ∈ rest, (entry.1, some entry.2) ∈ (facts.erase key).entries := by
      intro entry mem
      have other : entry.1 ≠ key := by
        rintro rfl
        exact distinct.1 (List.mem_map_of_mem _ mem)
      simpa [MsgFacts.erase, other] using present entry (.tail _ mem)
    obtain ⟨kept, run, entries⟩ :=
      eraseQueued_of_mem rest _ (deleted ++ [fact.ptr]) distinct.2 stillPresent
    refine ⟨kept, ?_, ?_⟩
    · rw [List.map_cons, eraseQueued, MsgFacts.index_of_mem (present _ (.head _))]
      simpa using run
    · rw [entries, MsgFacts.erase, List.filter_filter]
      refine List.filter_congr fun entry _ => ?_
      simp only [List.map_cons, List.mem_cons, not_or, Bool.decide_and, decide_not]
      exact Bool.and_comm ..

/-- With no null pointer and every key of a fact with reference count 1 within `int`, the
handler ends: it deletes the messages of exactly those facts, each once and in key order,
and keeps every other entry as it was. -/
theorem handleClipsPeriodic_of_int_keys (facts : MsgFacts)
    (nonNull : ∀ entry ∈ facts.entries, entry.2.isSome)
    (intKeys : ∀ key fact, (key, some fact) ∈ facts.entries → fact.refcount = 1 → InInt32 key) :
    ∃ kept, handleClipsPeriodic facts =
        .done kept ((erasableFacts facts.entries).map (·.2.ptr)) ∧
      kept.entries = facts.entries.filter fun entry => entry.2.any (·.refcount != 1) := by
  have queued : (erasableFacts facts.entries).map (intOfLong ·.1) =
      (erasableFacts facts.entries).map (·.1) :=
    List.map_congr_left fun entry mem =>
      intOfLong_of_inInt32 (intKeys _ _ (mem_erasableFacts.1 mem).1 (mem_erasableFacts.1 mem).2)
  have distinct : ((erasableFacts facts.entries).map (·.1)).Nodup :=
    List.pairwise_map.2 ((erasableFacts_ordered facts.ordered).imp Int.ne_of_lt)
  obtain ⟨kept, run, entries⟩ := eraseQueued_of_mem _ facts [] distinct
    fun entry mem => (mem_erasableFacts.1 mem).1
  refine ⟨kept, ?_, entries.trans (List.filter_congr fun entry mem => ?_)⟩
  · rw [handleClipsPeriodic, collectErasable_of_nonNull nonNull, queued]
    simpa using run
  · obtain ⟨key, _ | fact⟩ := entry
    · simpa using nonNull _ mem
    · by_cases one : fact.refcount = 1 <;> simp [MsgFacts.key_mem_erasable_iff mem, one]

theorem handleClipsPeriodic_small_keys :
    let facts : MsgFacts := ⟨[(3, some ⟨1, 9⟩), (7, some ⟨2, 4⟩)], by decide⟩
    (∀ entry ∈ facts.entries, entry.2.isSome) ∧
      (∀ key fact, (key, some fact) ∈ facts.entries → fact.refcount = 1 → InInt32 key) ∧
      ∃ kept, handleClipsPeriodic facts = .done kept ((erasableFacts facts.entries).map (·.2.ptr)) ∧
        kept.entries = facts.entries.filter fun entry => entry.2.any (·.refcount != 1) := by
  intro facts
  have nonNull : ∀ entry ∈ facts.entries, entry.2.isSome := by decide
  have intKeys : ∀ key fact, (key, some fact) ∈ facts.entries → fact.refcount = 1 → InInt32 key := by
    intro key fact mem _
    simp only [facts, List.mem_cons, Prod.mk.injEq, Option.some.injEq, List.mem_nil_iff,
      or_false] at mem
    rcases mem with ⟨rfl, -⟩ | ⟨rfl, -⟩ <;> exact ⟨by decide, by decide⟩
  exact ⟨nonNull, intKeys, handleClipsPeriodic_of_int_keys facts nonNull intKeys⟩

/-! ## Keys past the range of `int` -/

end RcllRefBox
