import Mathlib.Data.Finset.Card
import Mathlib.Data.Nat.Notation
import Mathlib.Data.Option.Basic
import Mathlib.Logic.Function.Basic

/-!
# A table under row locks

The rows of a table under READ COMMITTED.  A transaction writes a row after it has locked it, and
keeps the new version to itself until it commits; a statement sees its own transaction's versions
and otherwise the committed ones.

A unique index gives a row a key, or none when the index is partial and leaves the row out.  A row
is written when no other row has its key, neither among those the transaction sees nor among those
the other transactions are about to commit (`Admits`); else the statement waits or fails.  Then no
two committed rows have the same key, whoever commits first: `UniqueIndex` is kept by an admitted
write, by a commit and by a rollback.
-/

namespace RoadVisionAI.Transition

variable {κ ρ ι : Type*}

/-! ### Rows -/

/-- The place of a row: its committed version, and the one a transaction has yet to commit. -/
structure Slot (ρ : Type*) where
  committed : Option ρ
  pending : Option (ℕ × ρ)

namespace Slot

/-- No row, and nobody about to insert it. -/
def empty : Slot ρ := ⟨none, none⟩

/-- The version a statement of `p` sees. -/
def visible (slot : Slot ρ) (p : ℕ) : Option ρ :=
  match slot.pending with
  | some (q, r) => if q = p then some r else slot.committed
  | none => slot.committed

/-- No other transaction holds the row. -/
def Free (slot : Slot ρ) (p : ℕ) : Prop := ∀ w ∈ slot.pending, w.1 = p

instance (slot : Slot ρ) (p : ℕ) : Decidable (slot.Free p) :=
  match h : slot.pending with
  | none => .isTrue (by simp [Free, h])
  | some w => decidable_of_iff (w.1 = p) (by simp [Free, h])

/-- `p` writes the version `r`. -/
def write (slot : Slot ρ) (p : ℕ) (r : ρ) : Slot ρ := { slot with pending := some (p, r) }

/-- `COMMIT` of `p`. -/
def commit (slot : Slot ρ) (p : ℕ) : Slot ρ :=
  ⟨slot.visible p, slot.pending.filter fun w => w.1 ≠ p⟩

/-- `ROLLBACK` of `p`. -/
def rollback (slot : Slot ρ) (p : ℕ) : Slot ρ :=
  ⟨slot.committed, slot.pending.filter fun w => w.1 ≠ p⟩

variable {slot : Slot ρ} {p q : ℕ} {r : ρ}

theorem visible_of_pending (h : slot.pending = some (p, r)) : slot.visible p = some r := by
  rw [visible, h]
  exact if_pos rfl

theorem visible_of_not_pending (h : ∀ r, slot.pending ≠ some (p, r)) :
    slot.visible p = slot.committed := by
  unfold visible
  split
  next q r hpending =>
    have hq : q ≠ p := fun hq => h r (hq ▸ hpending)
    exact if_neg hq
  next => rfl

/-- What `p` sees it has written, or is committed. -/
theorem visible_cases (h : slot.visible p = some r) :
    slot.pending = some (p, r) ∨
      slot.committed = some r ∧ ∀ r', slot.pending ≠ some (p, r') := by
  by_cases hown : ∃ r', slot.pending = some (p, r')
  · obtain ⟨r', hr'⟩ := hown
    rw [visible_of_pending hr'] at h
    exact Or.inl (Option.some.inj h ▸ hr')
  · have hnone : ∀ r', slot.pending ≠ some (p, r') := fun r' hr' => hown ⟨r', hr'⟩
    rw [visible_of_not_pending hnone] at h
    exact Or.inr ⟨h, hnone⟩

@[simp]
theorem visible_write : (slot.write p r).visible p = some r :=
  visible_of_pending rfl

theorem visible_write_of_ne (h : q ≠ p) (hfree : slot.Free p) :
    (slot.write p r).visible q = slot.visible q := by
  have hold : slot.visible q = slot.committed :=
    visible_of_not_pending fun r' hr' => h (hfree _ hr')
  rw [hold]
  refine visible_of_not_pending fun r' hr' => ?_
  exact h (Prod.mk.inj (Option.some.inj hr')).1.symm

theorem pending_commit {w : ℕ × ρ} :
    (slot.commit p).pending = some w ↔ slot.pending = some w ∧ w.1 ≠ p := by
  simp [commit]

theorem pending_rollback {w : ℕ × ρ} :
    (slot.rollback p).pending = some w ↔ slot.pending = some w ∧ w.1 ≠ p := by
  simp [rollback]

theorem visible_rollback_of_ne (h : q ≠ p) : (slot.rollback p).visible q = slot.visible q := by
  by_cases hown : ∃ r, slot.pending = some (q, r)
  · obtain ⟨r, hr⟩ := hown
    rw [visible_of_pending hr, visible_of_pending (pending_rollback.mpr ⟨hr, h⟩)]
  · have hnone : ∀ r, slot.pending ≠ some (q, r) := fun r hr => hown ⟨r, hr⟩
    rw [visible_of_not_pending hnone]
    exact visible_of_not_pending fun r hr => hnone r (pending_rollback.mp hr).1

/-- After the commit of another transaction, `q` sees what it saw, or what has been committed. -/
theorem visible_commit_of_ne (h : q ≠ p) (hr : (slot.commit p).visible q = some r) :
    slot.visible q = some r ∨ slot.pending = some (p, r) := by
  rcases visible_cases hr with hown | ⟨hcommitted, hnone⟩
  · exact Or.inl (visible_of_pending (pending_commit.mp hown).1)
  · have hvisible : slot.visible p = some r := hcommitted
    rcases visible_cases hvisible with hp | ⟨hold, -⟩
    · exact Or.inr hp
    · refine Or.inl ?_
      rw [← hold]
      exact visible_of_not_pending fun r' hr' => hnone r' (pending_commit.mpr ⟨hr', h⟩)

end Slot

/-! ### Tables -/

/-- The rows of a table, and the keys that have ever been used. -/
structure LockedTable (κ ρ : Type*) where
  slots : κ → Slot ρ
  keys : List κ
  complete : ∀ k, k ∉ keys → slots k = .empty

namespace LockedTable

/-- The table without rows. -/
def empty : LockedTable κ ρ := ⟨fun _ => .empty, [], fun _ _ => rfl⟩

/-- The committed version of a row. -/
def committed (table : LockedTable κ ρ) (k : κ) : Option ρ := (table.slots k).committed

/-- The keys of the rows a `WHERE` clause selects, in a statement of `p`. -/
def select (table : LockedTable κ ρ) (p : ℕ) (cond : ρ → Bool) : List κ :=
  table.keys.filter fun k => ((table.slots k).visible p).any cond

/-- `p` inserts the row `k`, or writes a new version of it. -/
def write [DecidableEq κ] (table : LockedTable κ ρ) (p : ℕ) (k : κ) (r : ρ) :
    LockedTable κ ρ where
  slots := Function.update table.slots k ((table.slots k).write p r)
  keys := table.keys.insert k
  complete j hj := by
    rw [List.mem_insert_iff, not_or] at hj
    rw [Function.update_of_ne hj.1, table.complete j hj.2]

/-- `COMMIT` of `p`. -/
def commit (table : LockedTable κ ρ) (p : ℕ) : LockedTable κ ρ where
  slots k := (table.slots k).commit p
  keys := table.keys
  complete k hk := by rw [table.complete k hk]; rfl

/-- `ROLLBACK` of `p`. -/
def rollback (table : LockedTable κ ρ) (p : ℕ) : LockedTable κ ρ where
  slots k := (table.slots k).rollback p
  keys := table.keys
  complete k hk := by rw [table.complete k hk]; rfl

variable {table : LockedTable κ ρ} {p q : ℕ} {j k : κ} {r : ρ}

theorem slots_write_self [DecidableEq κ] :
    (table.write p k r).slots k = (table.slots k).write p r :=
  Function.update_self ..

theorem slots_write_of_ne [DecidableEq κ] (h : j ≠ k) :
    (table.write p k r).slots j = table.slots j :=
  Function.update_of_ne h ..

@[simp]
theorem committed_write [DecidableEq κ] : (table.write p k r).committed j = table.committed j := by
  by_cases h : j = k
  · rw [committed, h, slots_write_self]
    rfl
  · rw [committed, slots_write_of_ne h]
    rfl

/-- A pending version after a write is the new one, or that of another row. -/
theorem pending_write_cases [DecidableEq κ] {w : ℕ × ρ}
    (h : ((table.write p k r).slots j).pending = some w) :
    (j = k ∧ w = (p, r)) ∨ (j ≠ k ∧ (table.slots j).pending = some w) := by
  by_cases hj : j = k
  · rw [hj, slots_write_self] at h
    exact Or.inl ⟨hj, (Option.some.inj h).symm⟩
  · rw [slots_write_of_ne hj] at h
    exact Or.inr ⟨hj, h⟩

/-- Only the writer sees what it has written. -/
theorem visible_write_cases [DecidableEq κ] {r' : ρ} (hfree : (table.slots k).Free p)
    (h : ((table.write p k r).slots j).visible q = some r') :
    (j = k ∧ q = p ∧ r' = r) ∨ (table.slots j).visible q = some r' := by
  by_cases hj : j = k
  · subst hj
    rw [slots_write_self] at h
    by_cases hq : q = p
    · rw [hq, Slot.visible_write] at h
      exact Or.inl ⟨rfl, hq, (Option.some.inj h).symm⟩
    · rw [Slot.visible_write_of_ne hq hfree] at h
      exact Or.inr h
  · rw [slots_write_of_ne hj] at h
    exact Or.inr h

theorem mem_keys_of_visible (h : (table.slots k).visible p = some r) : k ∈ table.keys := by
  by_contra hk
  rw [table.complete k hk] at h
  cases h

theorem mem_keys_of_pending {w : ℕ × ρ} (h : (table.slots k).pending = some w) :
    k ∈ table.keys := by
  by_contra hk
  rw [table.complete k hk] at h
  cases h

/-- A key that has not been used has no row, and nobody locks it. -/
theorem committed_of_not_mem_keys (hk : k ∉ table.keys) : table.committed k = none := by
  rw [committed, table.complete k hk]
  rfl

theorem free_of_not_mem_keys (hk : k ∉ table.keys) : (table.slots k).Free p := by
  rw [table.complete k hk]
  exact fun w hw => nomatch hw

/-! ### Who holds what -/

/-- `p` is about to commit the version `r` of the row `k`. -/
def Holds (table : LockedTable κ ρ) (p : ℕ) (k : κ) (r : ρ) : Prop :=
  (table.slots k).pending = some (p, r)

theorem holds_write_self [DecidableEq κ] : (table.write p k r).Holds p k r := by
  rw [Holds, slots_write_self]
  rfl

theorem holds_write_of_ne [DecidableEq κ] {r' : ρ} (h : j ≠ k) :
    (table.write p k r).Holds q j r' ↔ table.Holds q j r' := by
  rw [Holds, slots_write_of_ne h]
  rfl

/-- A write leaves what the others hold. -/
theorem holds_write_of_holder_ne [DecidableEq κ] {r' : ρ} (h : q ≠ p)
    (hfree : (table.slots k).Free p) :
    (table.write p k r).Holds q j r' ↔ table.Holds q j r' := by
  by_cases hj : j = k
  · subst hj
    refine iff_of_false (fun hholds => ?_) fun hholds => h (hfree _ hholds)
    rw [Holds, slots_write_self] at hholds
    exact h (Prod.mk.inj (Option.some.inj hholds)).1.symm
  · exact holds_write_of_ne hj

/-- A row has one holder. -/
theorem Holds.unique {r' : ρ} (h : table.Holds p k r) (h' : table.Holds q k r') : p = q :=
  (Prod.mk.inj (Option.some.inj (h.symm.trans h'))).1

theorem Holds.free (h : table.Holds p k r) : (table.slots k).Free p := by
  intro w hw
  have heq : some w = some (p, r) := hw.symm.trans h
  rw [Option.some.inj heq]

theorem holds_commit : (table.commit p).Holds q k r ↔ table.Holds q k r ∧ q ≠ p :=
  Slot.pending_commit

theorem holds_rollback : (table.rollback p).Holds q k r ↔ table.Holds q k r ∧ q ≠ p :=
  Slot.pending_rollback

theorem committed_commit_of_holds (h : table.Holds p k r) :
    (table.commit p).committed k = some r :=
  Slot.visible_of_pending h

theorem committed_commit_of_not_holds (h : ∀ r, ¬ table.Holds p k r) :
    (table.commit p).committed k = table.committed k :=
  Slot.visible_of_not_pending h

/-! ### What one transaction does to another -/

/-- What `q` holds, and the committed versions of these rows, have stayed as they were. -/
structure Undisturbed (q : ℕ) (table table' : LockedTable κ ρ) : Prop where
  holds : ∀ k r, table'.Holds q k r ↔ table.Holds q k r
  committed : ∀ k r, table.Holds q k r → table'.committed k = table.committed k

theorem Undisturbed.trans {table' table'' : LockedTable κ ρ} (h : Undisturbed q table table')
    (h' : Undisturbed q table' table'') : Undisturbed q table table'' where
  holds k r := (h'.holds k r).trans (h.holds k r)
  committed k r hr := (h'.committed k r ((h.holds k r).mpr hr)).trans (h.committed k r hr)

theorem undisturbed_write [DecidableEq κ] (h : q ≠ p) (hfree : (table.slots k).Free p) :
    Undisturbed q table (table.write p k r) where
  holds _ _ := holds_write_of_holder_ne h hfree
  committed _ _ _ := committed_write

theorem undisturbed_commit (h : q ≠ p) : Undisturbed q table (table.commit p) where
  holds k r := by rw [holds_commit, and_iff_left h]
  committed k r hr := by
    apply committed_commit_of_not_holds
    intro r' hr'
    have heq : some (q, r) = some (p, r') := hr.symm.trans hr'
    exact h (Prod.mk.inj (Option.some.inj heq)).1

theorem undisturbed_rollback (h : q ≠ p) : Undisturbed q table (table.rollback p) where
  holds k r := by rw [holds_rollback, and_iff_left h]
  committed _ _ _ := rfl

/-- `p` holds nothing. -/
def HoldsNothing (table : LockedTable κ ρ) (p : ℕ) : Prop := ∀ k r, ¬ table.Holds p k r

/-- All that `p` holds is the row `r`, which it has inserted. -/
structure Inserts (table : LockedTable κ ρ) (p : ℕ) (k : κ) (r : ρ) : Prop where
  new : table.committed k = none
  holds : table.Holds p k r
  only : ∀ j r', table.Holds p j r' → j = k

theorem HoldsNothing.frame {table' : LockedTable κ ρ} (h : table.HoldsNothing q)
    (hframe : Undisturbed q table table') : table'.HoldsNothing q :=
  fun k r hr => h k r ((hframe.holds k r).mp hr)

theorem Inserts.frame {table' : LockedTable κ ρ} (h : table.Inserts q k r)
    (hframe : Undisturbed q table table') : table'.Inserts q k r where
  new := (hframe.committed k r h.holds).trans h.new
  holds := (hframe.holds k r).mpr h.holds
  only j r' hr' := h.only j r' ((hframe.holds j r').mp hr')

/-- Its commit adds the row, and changes no other. -/
theorem Inserts.committed_commit [DecidableEq κ] (h : table.Inserts p k r) (j : κ) :
    (table.commit p).committed j = if j = k then some r else table.committed j := by
  split_ifs with hj
  · rw [hj, committed_commit_of_holds h.holds]
  · exact committed_commit_of_not_holds fun r' hr' => hj (h.only j r' hr')

theorem HoldsNothing.visible (h : table.HoldsNothing p) :
    (table.slots k).visible p = table.committed k :=
  Slot.visible_of_not_pending (h k)

/-- Another version of the row it has inserted. -/
theorem Inserts.rewrite [DecidableEq κ] {r' : ρ} (h : table.Inserts p k r) :
    (table.write p k r').Inserts p k r' where
  new := committed_write.trans h.new
  holds := holds_write_self
  only j r'' hr'' := by
    by_contra hj
    exact hj (h.only j r'' ((holds_write_of_ne hj).mp hr''))

theorem holdsNothing_of_quiet (h : ∀ k, (table.slots k).pending = none) : table.HoldsNothing p := by
  intro k r hr
  rw [Holds, h k] at hr
  cases hr

theorem holdsNothing_commit : (table.commit p).HoldsNothing p :=
  fun _ _ hr => (holds_commit.mp hr).2 rfl

theorem holdsNothing_rollback : (table.rollback p).HoldsNothing p :=
  fun _ _ hr => (holds_rollback.mp hr).2 rfl

/-- The insert of a row under a key that has not been used. -/
theorem HoldsNothing.insert [DecidableEq κ] (h : table.HoldsNothing p) (hk : k ∉ table.keys) :
    (table.write p k r).Inserts p k r where
  new := committed_write.trans (committed_of_not_mem_keys hk)
  holds := holds_write_self
  only j r' hr' := by
    by_contra hj
    exact h j r' ((holds_write_of_ne hj).mp hr')

/-! ### Committed rows -/

section Rows

variable [DecidableEq κ] {cond : ρ → Bool}

/-- The committed rows that meet a condition. -/
def rows (table : LockedTable κ ρ) (cond : ρ → Bool) : Finset κ :=
  table.keys.toFinset.filter fun k => (table.committed k).any cond

theorem mem_rows : k ∈ table.rows cond ↔ ∃ r, table.committed k = some r ∧ cond r = true := by
  unfold rows
  rw [Finset.mem_filter, List.mem_toFinset, Option.any_eq_true]
  constructor
  · exact And.right
  · rintro ⟨r, hr, hcond⟩
    refine ⟨?_, r, hr, hcond⟩
    by_contra hk
    rw [committed_of_not_mem_keys hk] at hr
    cases hr

theorem rows_congr {table' : LockedTable κ ρ} (h : ∀ k, table'.committed k = table.committed k) :
    table'.rows cond = table.rows cond := by
  ext k
  rw [mem_rows, mem_rows, h k]

/-- The commit of one new row adds it, if it meets the condition, and changes nothing else. -/
theorem card_rows_commit (h : table.Inserts p k r) :
    ((table.commit p).rows cond).card = (table.rows cond).card + if cond r then 1 else 0 := by
  have hself : (table.commit p).committed k = some r := committed_commit_of_holds h.holds
  have hother : ∀ j, j ≠ k → (table.commit p).committed j = table.committed j := by
    intro j hj
    exact committed_commit_of_not_holds fun r' hr' => hj (h.only j r' hr')
  have hk : k ∉ table.rows cond := by
    rw [mem_rows, h.new]
    rintro ⟨r', hr', -⟩
    cases hr'
  have hrows : (table.commit p).rows cond
      = if cond r then insert k (table.rows cond) else table.rows cond := by
    ext j
    rw [mem_rows]
    by_cases hj : j = k
    · subst hj
      rw [hself]
      split_ifs with hcond <;> simp [hcond, hk]
    · rw [hother j hj, ← mem_rows]
      split_ifs <;> simp [hj]
  rw [hrows]
  split_ifs with hcond
  · exact Finset.card_insert_of_notMem hk
  · rfl

end Rows

/-! ### Facts about every version -/

/-- Every committed version and every pending one satisfies `P`. -/
def EveryVersion (P : κ → ρ → Prop) (table : LockedTable κ ρ) : Prop :=
  ∀ k r, table.committed k = some r ∨ (∃ p, (table.slots k).pending = some (p, r)) → P k r

namespace EveryVersion

variable {P : κ → ρ → Prop}

theorem visible (h : EveryVersion P table) (hr : (table.slots k).visible p = some r) : P k r := by
  rcases Slot.visible_cases hr with hpending | ⟨hcommitted, -⟩
  · exact h k r (Or.inr ⟨p, hpending⟩)
  · exact h k r (Or.inl hcommitted)

theorem imp {Q : κ → ρ → Prop} (h : EveryVersion P table)
    (himp : ∀ k ∈ table.keys, ∀ r, P k r → Q k r) : EveryVersion Q table := by
  intro k r hr
  refine himp k ?_ r (h k r hr)
  rcases hr with hcommitted | ⟨p, hpending⟩
  · by_contra hk
    rw [committed_of_not_mem_keys hk] at hcommitted
    cases hcommitted
  · exact mem_keys_of_pending hpending

theorem empty : EveryVersion P (LockedTable.empty : LockedTable κ ρ) := by
  rintro k r (h | ⟨p, h⟩) <;> cases h

theorem write [DecidableEq κ] (h : EveryVersion P table) (hr : P k r) :
    EveryVersion P (table.write p k r) := by
  rintro j r' (hcommitted | ⟨q, hpending⟩)
  · rw [committed_write] at hcommitted
    exact h j r' (Or.inl hcommitted)
  · rcases pending_write_cases hpending with ⟨rfl, hnew⟩ | ⟨-, hold⟩
    · obtain ⟨-, rfl⟩ := Prod.mk.inj hnew
      exact hr
    · exact h j r' (Or.inr ⟨q, hold⟩)

theorem commit (h : EveryVersion P table) (p : ℕ) : EveryVersion P (table.commit p) := by
  rintro k r (hcommitted | ⟨q, hpending⟩)
  · exact h.visible (p := p) hcommitted
  · exact h k r (Or.inr ⟨q, (Slot.pending_commit.mp hpending).1⟩)

theorem rollback (h : EveryVersion P table) (p : ℕ) : EveryVersion P (table.rollback p) := by
  rintro k r (hcommitted | ⟨q, hpending⟩)
  · exact h k r (Or.inl hcommitted)
  · exact h k r (Or.inr ⟨q, (Slot.pending_rollback.mp hpending).1⟩)

end EveryVersion

/-! ### Unique indexes -/

section UniqueIndex

variable (indexKey : ρ → Option ι)

/-- Two rows the index keeps apart. -/
def Conflict (r r' : ρ) : Prop := ∃ key, indexKey r = some key ∧ indexKey r' = some key

variable {indexKey} in
theorem Conflict.symm {r r' : ρ} (h : Conflict indexKey r r') : Conflict indexKey r' r := by
  obtain ⟨key, hr, hr'⟩ := h
  exact ⟨key, hr', hr⟩

instance [DecidableEq ι] (r r' : ρ) : Decidable (Conflict indexKey r r') :=
  match h : indexKey r with
  | none => .isFalse fun ⟨_, hr, _⟩ => by rw [h] at hr; cases hr
  | some key => decidable_of_iff (indexKey r' = some key) (by simp [Conflict, h])

/-- No other row has the key of `r`, among those `p` sees and those about to be committed. -/
def Admits (table : LockedTable κ ρ) (p : ℕ) (k : κ) (r : ρ) : Prop :=
  ∀ j ∈ table.keys, j ≠ k →
    (∀ r' ∈ (table.slots j).visible p, ¬ Conflict indexKey r r') ∧
      ∀ w ∈ (table.slots j).pending, w.1 ≠ p → ¬ Conflict indexKey r w.2

instance [DecidableEq κ] [DecidableEq ι] (table : LockedTable κ ρ) (p : ℕ) (k : κ) (r : ρ) :
    Decidable (table.Admits indexKey p k r) :=
  inferInstanceAs (Decidable (∀ j ∈ table.keys, j ≠ k →
    (∀ r' ∈ (table.slots j).visible p, ¬ Conflict indexKey r r') ∧
      ∀ w ∈ (table.slots j).pending, w.1 ≠ p → ¬ Conflict indexKey r w.2))

/-- What the index guarantees: committed rows have different keys, and a row about to be committed
has a key of its own, among the rows its transaction sees and among those of the others. -/
structure UniqueIndex (table : LockedTable κ ρ) : Prop where
  committed : ∀ j k r r', j ≠ k → table.committed j = some r → table.committed k = some r' →
    ¬ Conflict indexKey r r'
  visible : ∀ p k r j r', (table.slots k).pending = some (p, r) → j ≠ k →
    (table.slots j).visible p = some r' → ¬ Conflict indexKey r r'
  pending : ∀ p k r j q r', (table.slots k).pending = some (p, r) → j ≠ k →
    (table.slots j).pending = some (q, r') → ¬ Conflict indexKey r r'

variable {indexKey}

namespace UniqueIndex

theorem empty : UniqueIndex indexKey (LockedTable.empty : LockedTable κ ρ) where
  committed _ _ _ _ _ h := nomatch h
  visible _ _ _ _ _ h := nomatch h
  pending _ _ _ _ _ _ h := nomatch h

/-- While nothing is pending, the index is a fact about the committed rows. -/
theorem of_quiet (hquiet : ∀ k, (table.slots k).pending = none)
    (hcommitted : ∀ j k r r', j ≠ k → table.committed j = some r → table.committed k = some r' →
      ¬ Conflict indexKey r r') : UniqueIndex indexKey table where
  committed := hcommitted
  visible p k r j r' h := by rw [hquiet k] at h; cases h
  pending p k r j q r' h := by rw [hquiet k] at h; cases h

/-- The committed rows of one key are at most one. -/
theorem card_rows_le_one [DecidableEq κ] [DecidableEq ι] (h : UniqueIndex indexKey table)
    (key : ι) : (table.rows fun r => indexKey r = some key).card ≤ 1 := by
  rw [Finset.card_le_one]
  intro j hj k hk
  obtain ⟨r, hr, hkey⟩ := mem_rows.mp hj
  obtain ⟨r', hr', hkey'⟩ := mem_rows.mp hk
  by_contra hjk
  exact h.committed j k r r' hjk hr hr' ⟨key, of_decide_eq_true hkey, of_decide_eq_true hkey'⟩

/-- An admitted write keeps the index. -/
theorem write [DecidableEq κ] (h : UniqueIndex indexKey table) (hfree : (table.slots k).Free p)
    (hadmits : table.Admits indexKey p k r) : UniqueIndex indexKey (table.write p k r) := by
  have hvisible : ∀ j r', j ≠ k → (table.slots j).visible p = some r' →
      ¬ Conflict indexKey r r' := fun j r' hj hr' =>
    (hadmits j (mem_keys_of_visible hr') hj).1 r' hr'
  have hpending : ∀ j q r', j ≠ k → (table.slots j).pending = some (q, r') →
      ¬ Conflict indexKey r r' := by
    intro j q r' hj hr'
    by_cases hq : q = p
    · exact hvisible j r' hj (Slot.visible_of_pending (hq ▸ hr'))
    · exact (hadmits j (mem_keys_of_pending hr') hj).2 _ hr' hq
  constructor
  · intro i j r₁ r₂ hij h₁ h₂
    rw [committed_write] at h₁ h₂
    exact h.committed i j r₁ r₂ hij h₁ h₂
  · intro q i r₁ j r₂ h₁ hij h₂
    rcases pending_write_cases h₁ with ⟨rfl, hnew⟩ | ⟨hi, hold₁⟩
    · -- the row just written, beside one its writer sees
      obtain ⟨rfl, rfl⟩ := Prod.mk.inj hnew
      rcases visible_write_cases hfree h₂ with ⟨rfl, -⟩ | hold₂
      · exact absurd rfl hij
      · exact hvisible j r₂ hij hold₂
    · rcases visible_write_cases hfree h₂ with ⟨rfl, rfl, rfl⟩ | hold₂
      · exact fun hconflict => hpending i q r₁ hi hold₁ hconflict.symm
      · exact h.visible q i r₁ j r₂ hold₁ hij hold₂
  · intro q i r₁ j q' r₂ h₁ hij h₂
    rcases pending_write_cases h₁ with ⟨rfl, hnew⟩ | ⟨hi, hold₁⟩
    · -- the row just written, beside another pending one
      obtain ⟨rfl, rfl⟩ := Prod.mk.inj hnew
      rcases pending_write_cases h₂ with ⟨rfl, -⟩ | ⟨-, hold₂⟩
      · exact absurd rfl hij
      · exact hpending j q' r₂ hij hold₂
    · rcases pending_write_cases h₂ with ⟨rfl, hnew⟩ | ⟨-, hold₂⟩
      · obtain ⟨rfl, rfl⟩ := Prod.mk.inj hnew
        exact fun hconflict => hpending i q r₁ hi hold₁ hconflict.symm
      · exact h.pending q i r₁ j q' r₂ hold₁ hij hold₂

/-- A commit keeps the index: of two rows it leaves committed, one was pending or both were
committed. -/
theorem commit (h : UniqueIndex indexKey table) (p : ℕ) :
    UniqueIndex indexKey (table.commit p) := by
  constructor
  · intro j k r r' hjk hj hk
    have hj : (table.slots j).visible p = some r := hj
    have hk : (table.slots k).visible p = some r' := hk
    rcases Slot.visible_cases hj with hown | ⟨hcommitted, -⟩
    · exact h.visible p j r k r' hown hjk.symm hk
    · rcases Slot.visible_cases hk with hown' | ⟨hcommitted', -⟩
      · exact fun hconflict => h.visible p k r' j r hown' hjk hj hconflict.symm
      · exact h.committed j k r r' hjk hcommitted hcommitted'
  · intro q k r j r' hr hjk hr'
    obtain ⟨hr, hq⟩ := Slot.pending_commit.mp hr
    rcases Slot.visible_commit_of_ne hq hr' with hvisible | hp
    · exact h.visible q k r j r' hr hjk hvisible
    · exact h.pending q k r j p r' hr hjk hp
  · intro q k r j q' r' hr hjk hr'
    exact h.pending q k r j q' r' (Slot.pending_commit.mp hr).1 hjk (Slot.pending_commit.mp hr').1

theorem rollback (h : UniqueIndex indexKey table) (p : ℕ) :
    UniqueIndex indexKey (table.rollback p) := by
  constructor
  · exact h.committed
  · intro q k r j r' hr hjk hr'
    obtain ⟨hr, hq⟩ := Slot.pending_rollback.mp hr
    have hvisible : (table.slots j).visible q = some r' := by
      rw [← Slot.visible_rollback_of_ne hq]
      exact hr'
    exact h.visible q k r j r' hr hjk hvisible
  · intro q k r j q' r' hr hjk hr'
    exact h.pending q k r j q' r' (Slot.pending_rollback.mp hr).1 hjk
      (Slot.pending_rollback.mp hr').1

end UniqueIndex

end UniqueIndex

end LockedTable

end RoadVisionAI.Transition
