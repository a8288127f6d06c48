import Mathlib.Data.Nat.Notation
import Mathlib.Data.Option.Basic
import Mathlib.Tactic.SplitIfs

/-!
# A versioned row under row locks

One row of a table whose writes all go through a trigger that counts them in a version, under READ
COMMITTED: an `UPDATE` takes the row lock, keeps the new row to itself until it commits, and while
it does nobody else can write.  A statement may ask for a version.

`LockedRow` carries what locking guarantees as a field: the row a pending write was computed from
is still the committed one.  `Bumps` is one write, `Follows` any number of them: the version never
decreases, and the same version means the same row.  `LockedRow.commit_cases` says what a commit
writes.
-/

namespace RoadVisionAI.Transition

variable {ρ : Type*} (version : ρ → ℕ)

/-! ### Versions -/

/-- One write: the row is as it was, or its version is the next one. -/
def Bumps (r r' : ρ) : Prop := r' = r ∨ version r' = version r + 1

/-- `r'` is `r` after some writes. -/
def Follows (r r' : ρ) : Prop := version r ≤ version r' ∧ (version r = version r' → r = r')

variable {version}

theorem Follows.refl (r : ρ) : Follows version r r := ⟨Nat.le_refl _, fun _ => rfl⟩

theorem Follows.trans {r r' r'' : ρ} (h : Follows version r r') (h' : Follows version r' r'') :
    Follows version r r'' := by
  refine ⟨Nat.le_trans h.1 h'.1, fun heq => ?_⟩
  -- equal ends leave no room for a version in between
  have hmid : version r = version r' := Nat.le_antisymm h.1 (heq ▸ h'.1)
  exact (h.2 hmid).trans (h'.2 (hmid ▸ heq))

theorem Bumps.follows {r r' : ρ} (h : Bumps version r r') : Follows version r r' := by
  rcases h with rfl | h
  · exact Follows.refl r'
  · exact ⟨by omega, fun heq => by omega⟩

/-- A write that changes the row passes its version for good. -/
theorem Bumps.version_ne {r r' r'' : ρ} (h : Bumps version r r') (hne : r' ≠ r)
    (h' : Follows version r' r'') : version r'' ≠ version r := by
  rcases h with heq | hlt
  · exact absurd heq hne
  · have := h'.1
    omega

/-! ### The row and its lock -/

variable (version)

/-- A pending write: who holds the lock, the version the statement asked for, the row it was
computed from, and the statement's effect, triggers included. -/
structure RowLock where
  holder : ℕ
  expected : Option ℕ
  base : ρ
  write : ρ → ρ
  /-- The statement matched the row. -/
  matched : ∀ v, expected = some v → version base = v
  /-- The trigger counts the writes. -/
  bumps : ∀ r, Bumps version r (write r)

/-- The committed row and the pending write, if any. -/
structure LockedRow where
  committed : ρ
  lock : Option (RowLock version)
  /-- Nobody else has written since the lock was taken. -/
  current : ∀ l, lock = some l → l.base = committed

variable {version}

/-- The row the holder of the lock sees, and will commit. -/
def RowLock.pending (l : RowLock version) : ρ := l.write l.base

/-- What an `UPDATE` statement does. -/
inductive UpdateResult (version : ρ → ℕ) where
  /-- It waits for the lock. -/
  | blocked
  /-- Its `WHERE` clause matches no row. -/
  | noMatch
  /-- It has the lock. -/
  | locked (row : LockedRow version)

namespace LockedRow

variable (row : LockedRow version)

/-- `UPDATE … WHERE version = expected`, or without the condition.  A row that does not match is
not waited for; after a wait the condition is evaluated again. -/
def update (p : ℕ) (expected : Option ℕ) (write : ρ → ρ)
    (bumps : ∀ r, Bumps version r (write r)) : UpdateResult version :=
  if hmatch : ∀ v, expected = some v → version row.committed = v then
    match row.lock with
    | some _ => .blocked
    | none => .locked {
        committed := row.committed
        lock := some {
          holder := p, expected, base := row.committed, write, matched := hmatch, bumps }
        current := fun l hl => by rw [← Option.some.inj hl] }
  else .noMatch

/-- `p` holds the lock. -/
def HeldBy (p : ℕ) : Prop := ∃ l, row.lock = some l ∧ l.holder = p

/-- The row without lock. -/
def unlocked (committed : ρ) : LockedRow version := ⟨committed, none, fun _ h => nomatch h⟩

/-- `COMMIT` of `p`: its pending write, if it has one, becomes the committed row. -/
def commit (p : ℕ) : LockedRow version :=
  match row.lock with
  | none => row
  | some l => if l.holder = p then unlocked l.pending else row

/-- `ROLLBACK` of `p`. -/
def rollback (p : ℕ) : LockedRow version :=
  match row.lock with
  | none => row
  | some l => if l.holder = p then unlocked row.committed else row

variable {row} {p : ℕ}

/-- An `UPDATE` that gets the lock computes its row from the committed one. -/
theorem update_eq_locked {expected : Option ℕ} {write : ρ → ρ}
    {bumps : ∀ r, Bumps version r (write r)} {row' : LockedRow version}
    (h : row.update p expected write bumps = .locked row') :
    row.lock = none ∧ row'.committed = row.committed ∧
      ∃ l, row'.lock = some l ∧ l.holder = p ∧ l.expected = expected ∧ l.write = write ∧
        l.base = row.committed := by
  unfold update at h
  split_ifs at h with hmatch
  split at h
  · cases h
  · obtain rfl := UpdateResult.locked.inj h
    exact ⟨‹_›, rfl, _, rfl, rfl, rfl, rfl, rfl⟩

theorem commit_of_held {l : RowLock version} (hl : row.lock = some l) (hp : l.holder = p) :
    row.commit p = unlocked l.pending := by
  unfold commit
  rw [hl]
  simp only [hp, if_true]

theorem commit_of_not_held (h : ¬ row.HeldBy p) : row.commit p = row := by
  unfold commit
  split
  · rfl
  · next l hl => exact if_neg fun hp => h ⟨l, hl, hp⟩

@[simp]
theorem committed_rollback : (row.rollback p).committed = row.committed := by
  unfold rollback
  split
  · rfl
  · split_ifs <;> rfl

theorem rollback_of_not_held (h : ¬ row.HeldBy p) : row.rollback p = row := by
  unfold rollback
  split
  · rfl
  · next l hl => exact if_neg fun hp => h ⟨l, hl, hp⟩

theorem lock_rollback {l : RowLock version} (h : (row.rollback p).lock = some l) :
    row.lock = some l ∧ l.holder ≠ p := by
  unfold rollback at h
  split at h
  · next hnone => rw [hnone] at h; cases h
  · next l' hl' =>
    split_ifs at h with hp
    · cases h
    · rw [hl'] at h
      obtain rfl := Option.some.inj h
      exact ⟨hl', hp⟩

theorem lock_commit {l : RowLock version} (h : (row.commit p).lock = some l) :
    row.lock = some l ∧ l.holder ≠ p := by
  unfold commit at h
  split at h
  · next hnone => rw [hnone] at h; cases h
  · next l' hl' =>
    split_ifs at h with hp
    · cases h
    · rw [hl'] at h
      obtain rfl := Option.some.inj h
      exact ⟨hl', hp⟩

/-- A commit that changes the row writes what was computed from the row it replaces. -/
theorem commit_cases (row : LockedRow version) (p : ℕ) :
    (row.commit p).committed = row.committed ∨
      ∃ l, row.lock = some l ∧ l.holder = p ∧ (row.commit p).committed = l.write row.committed := by
  by_cases h : row.HeldBy p
  · obtain ⟨l, hl, hp⟩ := h
    refine Or.inr ⟨l, hl, hp, ?_⟩
    rw [commit_of_held hl hp, ← row.current l hl]
    rfl
  · exact Or.inl (by rw [commit_of_not_held h])

end LockedRow

end RoadVisionAI.Transition
