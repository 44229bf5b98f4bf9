import Mathlib.Data.Int.Notation
import Mathlib.Data.List.Perm.Basic

/-! Kernel objects shared by threads: counting semaphores, bounded message
queues and memory slabs, each with the law its users' invariants rest on; and
the error number that several drivers return. -/
namespace WlabStation

def EIO : ℤ := 5

/-- A semaphore. Giving at the limit is lost. -/
structure Sem where
  count : ℕ
  limit : ℕ
  deriving DecidableEq, Repr

namespace Sem

def give (s : Sem) : Sem := { s with count := min (s.count + 1) s.limit }

def take (s : Sem) : Option Sem :=
  if s.count = 0 then none else some { s with count := s.count - 1 }

/-- A take without waiting whose result is ignored. -/
def tryTake (s : Sem) : Sem := s.take.getD s

theorem tryTake_binary {s : Sem} (hl : s.limit = 1) (hc : s.count ≤ 1) :
    s.tryTake = ⟨0, 1⟩ := by
  obtain ⟨count, limit⟩ := s
  simp only at hl hc
  subst hl
  unfold tryTake take
  split_ifs with h
  · simp only at h
    simp [h]
  · simp only at h
    simp only [Option.getD_some, Sem.mk.injEq, and_true]
    omega

end Sem

/-- A message queue with its capacity. -/
structure Msgq (α : Type*) where
  items : List α
  capacity : ℕ
  deriving DecidableEq, Repr

namespace Msgq
variable {α : Type*}

def put (q : Msgq α) (x : α) : Option (Msgq α) :=
  if q.items.length < q.capacity then some { q with items := q.items ++ [x] } else none

def get (q : Msgq α) : Option (α × Msgq α) :=
  match q.items with
  | [] => none
  | x :: xs => some (x, { q with items := xs })

theorem put_eq_some {q r : Msgq α} {x : α} :
    q.put x = some r ↔ q.items.length < q.capacity ∧ r = ⟨q.items ++ [x], q.capacity⟩ := by
  unfold put
  split_ifs with h
  · simp [h, eq_comm]
  · simp [h]

theorem get_eq_some {q r : Msgq α} {x : α} :
    q.get = some (x, r) ↔ q.items = x :: r.items ∧ r.capacity = q.capacity := by
  obtain ⟨items, capacity⟩ := q
  obtain ⟨items', capacity'⟩ := r
  cases items with
  | nil => simp [get]
  | cons y ys =>
    simp only [get, Option.some.injEq, Prod.mk.injEq, Msgq.mk.injEq, List.cons.injEq]
    constructor
    · rintro ⟨rfl, rfl, rfl⟩
      exact ⟨⟨rfl, rfl⟩, rfl⟩
    · rintro ⟨⟨rfl, rfl⟩, rfl⟩
      exact ⟨rfl, rfl, rfl⟩

end Msgq

/-- A memory slab: its free blocks and the counter of used ones. -/
structure Slab (α : Type*) where
  free : List α
  numUsed : ℕ
  deriving DecidableEq, Repr

namespace Slab
variable {α : Type*}

def alloc (s : Slab α) : Option (α × Slab α) :=
  match s.free with
  | [] => none
  | b :: bs => some (b, ⟨bs, s.numUsed + 1⟩)

def release (s : Slab α) (b : α) : Slab α := ⟨b :: s.free, s.numUsed - 1⟩

/-- The blocks of the slab are the free ones and those that the owners hold. -/
structure Accounts (s : Slab α) (blocks owners : List α) : Prop where
  perm : (s.free ++ owners).Perm blocks
  used : s.numUsed = owners.length

variable {s t : Slab α} {blocks owners : List α} {b : α}

theorem Accounts.of_perm (h : s.Accounts blocks owners) {owners' : List α}
    (hp : owners'.Perm owners) : s.Accounts blocks owners' :=
  ⟨(hp.append_left _).trans h.perm, h.used.trans hp.length_eq.symm⟩

theorem Accounts.alloc (h : s.Accounts blocks owners) (ha : s.alloc = some (b, t)) :
    t.Accounts blocks (b :: owners) := by
  obtain ⟨free, numUsed⟩ := s
  cases free with
  | nil => simp [Slab.alloc] at ha
  | cons c cs =>
    simp only [Slab.alloc, Option.some.injEq, Prod.mk.injEq] at ha
    obtain ⟨rfl, rfl⟩ := ha
    have hused := h.used
    exact ⟨List.perm_middle.trans h.perm, by simpa using hused⟩

theorem Accounts.release (h : s.Accounts blocks (b :: owners)) :
    (s.release b).Accounts blocks owners :=
  ⟨List.perm_middle.symm.trans h.perm, by simp [Slab.release, h.used]⟩

/-- No more blocks are held than the slab has. -/
theorem Accounts.length_le (h : s.Accounts blocks owners) : owners.length ≤ blocks.length := by
  have := h.perm.length_eq
  rw [List.length_append] at this
  omega

end Slab
end WlabStation
