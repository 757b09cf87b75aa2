import Mathlib

/-!
# Hash indexes with list buckets

A multimap from keys to lists, the shape of an `unordered_map<K, vector<V>>`. The map is
an `AList`, so that no key has two buckets; a missing key is an empty bucket.

`Indexes m key l` says that `m` is an index of the list `l` by `key`: every bucket holds
the items of its key, in the order of `l`. `probe_perm` is what an index is for: looking
into the buckets of distinct keys finds the items a scan of `l` finds, each as often.
-/

namespace ThoriumFrugal.Lib

/-- A map from keys to buckets. -/
abbrev Multimap (κ α : Type*) := AList fun _ : κ => List α

namespace Multimap

variable {κ α : Type*} [DecidableEq κ]

/-- The bucket of a key, empty when the key is missing. -/
def bucket (m : Multimap κ α) (k : κ) : List α := (m.lookup k).getD []

/-- The items of all buckets. -/
def items (m : Multimap κ α) : List α := m.entries.flatMap Sigma.snd

/-- Append an item to the bucket of a key. -/
def push (m : Multimap κ α) (k : κ) (a : α) : Multimap κ α := m.insert k (m.bucket k ++ [a])

@[simp] theorem bucket_empty (k : κ) : bucket (∅ : Multimap κ α) k = [] := by
  simp [bucket]

@[simp] theorem bucket_push_self (m : Multimap κ α) (k : κ) (a : α) :
    (m.push k a).bucket k = m.bucket k ++ [a] := by
  unfold push
  rw [bucket, AList.lookup_insert]
  rfl

theorem bucket_push_of_ne (m : Multimap κ α) {k k' : κ} (a : α) (h : k' ≠ k) :
    (m.push k a).bucket k' = m.bucket k' := by
  unfold push
  rw [bucket, AList.lookup_insert_ne h]
  rfl

theorem bucket_of_lookup {m : Multimap κ α} {k : κ} {as : List α} (h : m.lookup k = some as) :
    m.bucket k = as := by
  rw [bucket, h]
  rfl

theorem items_eq_flatMap_bucket (m : Multimap κ α) : m.items = m.keys.flatMap m.bucket := by
  change m.entries.flatMap Sigma.snd = (m.entries.map Sigma.fst).flatMap m.bucket
  rw [List.flatMap_map]
  refine List.flatMap_congr fun entry hentry => ?_
  exact (bucket_of_lookup (AList.mem_lookup_iff.mpr hentry)).symm

/-! ## Indexes of a list -/

/-- The buckets of `m` hold the items of `l` by their key, in the order of `l`. -/
def Indexes (m : Multimap κ α) (key : α → κ) (l : List α) : Prop :=
  ∀ k, m.bucket k = l.filter (key · = k)

variable {m : Multimap κ α} {key : α → κ} {l : List α}

theorem indexes_empty (key : α → κ) : Indexes (∅ : Multimap κ α) key [] :=
  fun k => by simp

theorem Indexes.push (h : Indexes m key l) (a : α) :
    Indexes (m.push (key a) a) key (l ++ [a]) := by
  intro k
  rw [List.filter_append]
  by_cases hk : k = key a
  · subst hk
    rw [bucket_push_self, h]
    simp
  · rw [bucket_push_of_ne m a hk, h]
    simp [Ne.symm hk]

/-- Filtering by two tests that exclude each other. -/
theorem filter_or_perm {p q : α → Bool} (hpq : ∀ a, p a = true → q a = false) (l : List α) :
    (l.filter fun a => p a || q a).Perm (l.filter p ++ l.filter q) := by
  have hp : (l.filter fun a => p a || q a).filter p = l.filter p := by
    rw [List.filter_filter]
    exact List.filter_congr fun a _ => by cases p a <;> simp
  have hq : (l.filter fun a => p a || q a).filter (fun a => !p a) = l.filter q := by
    rw [List.filter_filter]
    refine List.filter_congr fun a _ => ?_
    cases h : p a
    · simp
    · simp [hpq a h]
  have := List.filter_append_perm p (l.filter fun a => p a || q a)
  rw [hp, hq] at this
  exact this.symm

/-- Probing an index at distinct keys, with a test that may look at the probed key, finds
the items of the list whose key is probed and that pass the test. -/
theorem Indexes.probe_perm (h : Indexes m key l) {ks : List κ} (hks : ks.Nodup)
    (test : κ → α → Bool) :
    (ks.flatMap fun k => (m.bucket k).filter (test k)).Perm
      (l.filter fun a => decide (key a ∈ ks) && test (key a) a) := by
  induction ks with
  | nil => simp
  | cons k ks ih =>
    obtain ⟨hk, hks⟩ := List.nodup_cons.mp hks
    have hfirst : (m.bucket k).filter (test k)
        = l.filter fun a => decide (key a = k) && test (key a) a := by
      rw [h k, List.filter_filter]
      refine List.filter_congr fun a _ => ?_
      by_cases hak : key a = k
      · simp [hak]
      · simp [hak]
    have hsplit : (l.filter fun a => decide (key a ∈ k :: ks) && test (key a) a)
        = l.filter fun a => (decide (key a = k) && test (key a) a)
            || (decide (key a ∈ ks) && test (key a) a) := by
      refine List.filter_congr fun a _ => ?_
      rw [← Bool.and_or_distrib_right]
      simp [List.mem_cons]
    rw [List.flatMap_cons, hfirst, hsplit]
    refine List.Perm.trans ((ih hks).append_left _) (filter_or_perm (fun a ha => ?_) l).symm
    -- an item of the first key is not found again under a later one
    have hak : key a = k := by simpa using (Bool.and_eq_true_iff.mp ha).1
    simp [hak, hk]

/-- An index holds the items of its list and no others, each as often. -/
theorem Indexes.items_perm (h : Indexes m key l) : m.items.Perm l := by
  have hprobe := h.probe_perm m.keys_nodup fun _ _ => true
  simp only [Bool.and_true, List.filter_true] at hprobe
  -- the bucket of an item's key is not empty, so the map has the key
  have hall : l.filter (fun a => decide (key a ∈ m.keys)) = l := by
    apply List.filter_eq_self.mpr
    intro a ha
    have hbucket : a ∈ m.bucket (key a) := by
      rw [h]
      simpa using ha
    rw [decide_eq_true_eq]
    by_contra hkey
    rw [bucket, AList.lookup_eq_none.mpr hkey] at hbucket
    simp at hbucket
  rw [items_eq_flatMap_bucket, ← hall]
  exact hprobe

end Multimap
end ThoriumFrugal.Lib
