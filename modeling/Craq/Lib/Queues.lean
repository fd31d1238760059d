import Mathlib

/-! # Queues by key

Items wait in one queue for each key, and the keys whose queue is not empty stand in a list, each of
them once.  Items join at the end of the queue of their key and are taken from its front.
-/

namespace Craq.Lib

universe u v

variable {K : Type u} {α : Type v}

/-- The keys that have something waiting are listed, each once. -/
structure Listed (order : List K) (waiting : K → List α) : Prop where
  nodup : order.Nodup
  mem_iff : ∀ key, key ∈ order ↔ waiting key ≠ []

variable [DecidableEq K] {order : List K} {waiting : K → List α} {key : K} {item : α}
  {later : List α}

/-- The list of keys after an item has joined the queue of the key. -/
def listJoined (order : List K) (waiting : K → List α) (key : K) : List K :=
  if waiting key = [] then order ++ [key] else order

/-- The list of keys after the front of a queue has been taken and `later` is left in it. -/
def listLeft (order : List K) (key : K) (later : List α) : List K :=
  if later = [] then order.erase key else order

theorem flatMap_update_of_notMem (hKey : key ∉ order) (queue : List α) :
    order.flatMap (Function.update waiting key queue) = order.flatMap waiting :=
  List.flatMap_congr fun _ hOther =>
    Function.update_of_ne (ne_of_mem_of_not_mem hOther hKey) queue waiting

omit [DecidableEq K] in
theorem notMem_front_of_nodup {front back : List K} (hNodup : (front ++ key :: back).Nodup) :
    key ∉ front :=
  fun hFront => (List.nodup_append.mp hNodup).2.2 key hFront key List.mem_cons_self rfl

theorem erase_middle {front back : List K} (hNodup : (front ++ key :: back).Nodup) :
    (front ++ key :: back).erase key = front ++ back := by
  rw [List.erase_append_right _ (notMem_front_of_nodup hNodup), List.erase_cons_head]

/-- What waits at a listed key, between what waits before and after it. -/
theorem flatMap_update_middle {front back : List K} (hNodup : (front ++ key :: back).Nodup)
    (queue : List α) :
    (front ++ key :: back).flatMap (Function.update waiting key queue) =
      front.flatMap waiting ++ (queue ++ back.flatMap waiting) := by
  have hBack := List.nodup_cons.mp (List.nodup_append.mp hNodup).2.1
  rw [List.flatMap_append, List.flatMap_cons, Function.update_self,
    flatMap_update_of_notMem (notMem_front_of_nodup hNodup), flatMap_update_of_notMem hBack.1]

namespace Listed

omit [DecidableEq K] in
theorem nil : Listed ([] : List K) (fun _ => ([] : List α)) where
  nodup := List.nodup_nil
  mem_iff key := by simp

variable (h : Listed order waiting)

include h

theorem joined :
    Listed (listJoined order waiting key)
      (Function.update waiting key (waiting key ++ [item])) := by
  rw [listJoined]
  split
  case isTrue hEmpty =>
    have hKey : key ∉ order := fun hMem => (h.mem_iff key).mp hMem hEmpty
    refine ⟨List.nodup_append.mpr ⟨h.nodup, List.nodup_singleton key, ?_⟩, fun other => ?_⟩
    · intro first hFirst second hSecond
      cases List.mem_singleton.mp hSecond
      exact ne_of_mem_of_not_mem hFirst hKey
    · rw [List.mem_append, List.mem_singleton, h.mem_iff other, Function.update_apply]
      by_cases hOther : other = key <;> simp [hOther, hEmpty]
  case isFalse hWaits =>
    refine ⟨h.nodup, fun other => ?_⟩
    rw [h.mem_iff other, Function.update_apply]
    by_cases hOther : other = key <;> simp [hOther, hWaits]

theorem joined_perm :
    ((listJoined order waiting key).flatMap
      (Function.update waiting key (waiting key ++ [item]))).Perm
        (order.flatMap waiting ++ [item]) := by
  rw [listJoined]
  split
  case isTrue hEmpty =>
    have hKey : key ∉ order := fun hMem => (h.mem_iff key).mp hMem hEmpty
    rw [List.flatMap_append, flatMap_update_of_notMem hKey, List.flatMap_singleton,
      Function.update_self, hEmpty, List.nil_append]
  case isFalse hWaits =>
    obtain ⟨front, back, rfl⟩ := List.append_of_mem ((h.mem_iff key).mpr hWaits)
    rw [flatMap_update_middle h.nodup, List.flatMap_append, List.flatMap_cons]
    simp only [List.append_assoc]
    exact ((List.perm_append_comm.append_left _).append_left _)

theorem left (hFront : waiting key = item :: later) :
    Listed (listLeft order key later) (Function.update waiting key later) := by
  rw [listLeft]
  split
  case isTrue hLast =>
    refine ⟨h.nodup.erase key, fun other => ?_⟩
    rw [h.nodup.mem_erase_iff, h.mem_iff other, Function.update_apply]
    by_cases hOther : other = key <;> simp [hOther, hLast]
  case isFalse hMore =>
    refine ⟨h.nodup, fun other => ?_⟩
    rw [h.mem_iff other, Function.update_apply]
    by_cases hOther : other = key <;> simp [hOther, hMore, hFront]

theorem left_perm (hFront : waiting key = item :: later) :
    (order.flatMap waiting).Perm
      (item :: (listLeft order key later).flatMap (Function.update waiting key later)) := by
  have hKey : key ∈ order := (h.mem_iff key).mpr (by simp [hFront])
  obtain ⟨front, back, rfl⟩ := List.append_of_mem hKey
  have hLeft : (listLeft (front ++ key :: back) key later).flatMap
      (Function.update waiting key later) =
        front.flatMap waiting ++ (later ++ back.flatMap waiting) := by
    rw [listLeft]
    split
    case isTrue hLast =>
      have hBack := List.nodup_cons.mp (List.nodup_append.mp h.nodup).2.1
      rw [erase_middle h.nodup, List.flatMap_append,
        flatMap_update_of_notMem (notMem_front_of_nodup h.nodup),
        flatMap_update_of_notMem hBack.1, hLast, List.nil_append]
    case isFalse => exact flatMap_update_middle h.nodup later
  rw [hLeft, List.flatMap_append, List.flatMap_cons, hFront]
  exact List.perm_middle

end Listed

end Craq.Lib
