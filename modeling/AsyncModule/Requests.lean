import AsyncModule.Request

/-!
# AsyncModule.Requests

Where the live requests are kept. Places are used again; a request is known by its place and a
serial number, and no number is used twice.

* `get?_insert` — a new request is found under its number and hides no other.
* `get?_erase`  — a request that is gone is not found, whatever stands at its place.
* `mem_live`    — the live requests are those that are found.
-/

namespace AsyncModule

/-- The live requests, each at its place. A place that has become vacant is used again, the one
left last before the others, while serial numbers only grow: the number of a request that is gone
finds nothing, even when its place is taken again. -/
structure Requests (ν : Type) where
  /-- What stands at each place: a request with its serial number, or nothing. -/
  entries : List (Option (Nat × Request ν))
  vacant : List Nat
  /-- The last serial number given out. -/
  serial : Nat
  vacant_nodup : vacant.Nodup
  entry_of_vacant : ∀ k ∈ vacant, entries[k]? = some none
  serial_le : ∀ (k s : Nat) (r : Request ν), entries[k]? = some (some (s, r)) → s ≤ serial

namespace Requests

variable {ν : Type}

def empty : Requests ν := ⟨[], [], 0, .nil, by simp, by simp⟩

def get? (rs : Requests ν) (id : RequestId) : Option (Request ν) :=
  match rs.entries[id.key]? with
  | some (some (s, r)) => if s = id.serial then some r else none
  | _ => none

theorem get?_eq_some_iff {rs : Requests ν} {id : RequestId} {r : Request ν} :
    rs.get? id = some r ↔ rs.entries[id.key]? = some (some (id.serial, r)) := by
  unfold get?
  split
  · rename_i s r' h
    rw [h]
    by_cases hs : s = id.serial
    · simp [hs]
    · simp [hs]
  · rename_i h
    constructor
    · intro h'; cases h'
    · intro h'; exact absurd h' (h _ _)

def nextKey (rs : Requests ν) : Nat := rs.vacant.headD rs.entries.length

def place (rs : Requests ν) (entry : Nat × Request ν) : List (Option (Nat × Request ν)) :=
  match rs.vacant with
  | [] => rs.entries ++ [some entry]
  | k :: _ => rs.entries.set k (some entry)

theorem getElem?_place (rs : Requests ν) (entry : Nat × Request ν) (k : Nat) :
    (rs.place entry)[k]? = if k = rs.nextKey then some (some entry) else rs.entries[k]? := by
  cases hv : rs.vacant with
  | nil =>
    simp only [place, nextKey, hv, List.headD_nil, List.getElem?_append, List.getElem?_singleton]
    split
    · rw [if_neg (by omega)]
    · split
      · rw [if_pos (by omega)]
      · rw [if_neg (by omega), List.getElem?_eq_none (by omega)]
  | cons free rest =>
    have hfree : rs.entries[free]? = some none := rs.entry_of_vacant free (by simp [hv])
    obtain ⟨hlt, _⟩ := List.getElem?_eq_some_iff.mp hfree
    simp only [place, nextKey, hv, List.headD_cons, List.getElem?_set, eq_comm (a := free)]
    split
    · simp
    · rfl

theorem entry_nextKey (rs : Requests ν) (entry : Nat × Request ν) :
    rs.entries[rs.nextKey]? ≠ some (some entry) := by
  cases hv : rs.vacant with
  | nil => simp [nextKey, hv]
  | cons free rest =>
    have hfree : rs.entries[free]? = some none := rs.entry_of_vacant free (by simp [hv])
    simp [nextKey, hv, hfree]

def insert (rs : Requests ν) (r : Request ν) : RequestId × Requests ν :=
  (⟨rs.nextKey, rs.serial + 1⟩,
    { entries := rs.place (rs.serial + 1, r)
      vacant := rs.vacant.tail
      serial := rs.serial + 1
      vacant_nodup := rs.vacant_nodup.tail
      entry_of_vacant := by
        intro k hk
        have hne : k ≠ rs.nextKey := by
          intro h
          have hnd := rs.vacant_nodup
          cases hv : rs.vacant with
          | nil => simp [hv] at hk
          | cons free rest =>
            simp only [hv, List.tail_cons] at hk
            simp only [nextKey, hv, List.headD_cons] at h
            rw [hv, List.nodup_cons] at hnd
            exact hnd.1 (h ▸ hk)
        rw [getElem?_place, if_neg hne]
        exact rs.entry_of_vacant k (List.mem_of_mem_tail hk)
      serial_le := by
        intro k s r' h
        rw [getElem?_place] at h
        split at h
        · simp only [Option.some.injEq, Prod.mk.injEq] at h; omega
        · exact Nat.le_succ_of_le (rs.serial_le k s r' h) })

def modify (rs : Requests ν) (id : RequestId) (f : Request ν → Request ν) : Requests ν :=
  match h : rs.get? id with
  | none => rs
  | some r =>
    { rs with
      entries := rs.entries.set id.key (some (id.serial, f r))
      entry_of_vacant := by
        intro k hk
        have hv := rs.entry_of_vacant k hk
        have hne : id.key ≠ k := by
          rintro rfl
          rw [get?_eq_some_iff, hv] at h
          cases h
        rw [List.getElem?_set_ne hne, hv]
      serial_le := by
        intro k s r' h'
        rw [List.getElem?_set] at h'
        split at h'
        · split at h'
          · simp only [Option.some.injEq, Prod.mk.injEq] at h'
            rw [← h'.1]
            exact rs.serial_le _ _ _ (get?_eq_some_iff.mp h)
          · cases h'
        · exact rs.serial_le k s r' h' }

def erase (rs : Requests ν) (id : RequestId) : Requests ν :=
  match h : rs.get? id with
  | none => rs
  | some r =>
    { rs with
      entries := rs.entries.set id.key none
      vacant := id.key :: rs.vacant
      vacant_nodup := by
        rw [List.nodup_cons]
        refine ⟨fun hk => ?_, rs.vacant_nodup⟩
        rw [get?_eq_some_iff, rs.entry_of_vacant _ hk] at h
        cases h
      entry_of_vacant := by
        intro k hk
        rw [List.getElem?_set]
        split
        · rename_i hkey
          have := (List.getElem?_eq_some_iff.mp (get?_eq_some_iff.mp h)).1
          rw [if_pos (by omega)]
        · rename_i hkey
          rcases List.mem_cons.mp hk with rfl | hk
          · exact absurd rfl hkey
          · exact rs.entry_of_vacant k hk
      serial_le := by
        intro k s r' h'
        rw [List.getElem?_set] at h'
        split at h'
        · split at h' <;> cases h'
        · exact rs.serial_le k s r' h' }

def live (rs : Requests ν) : List (RequestId × Request ν) :=
  rs.entries.zipIdx.filterMap fun (entry, k) => entry.map fun (s, r) => (⟨k, s⟩, r)

def size (rs : Requests ν) : Nat := rs.live.length

def Issued (rs : Requests ν) (id : RequestId) : Prop := id.serial ≤ rs.serial

theorem issued_of_get? {rs : Requests ν} {id : RequestId} {r : Request ν}
    (h : rs.get? id = some r) : rs.Issued id :=
  rs.serial_le _ _ _ (get?_eq_some_iff.mp h)

theorem not_issued_insert (rs : Requests ν) (r : Request ν) : ¬ rs.Issued (rs.insert r).1 := by
  simp [Issued, insert]

@[simp] theorem serial_insert (rs : Requests ν) (r : Request ν) :
    (rs.insert r).2.serial = rs.serial + 1 := rfl

@[simp] theorem serial_modify (rs : Requests ν) (id : RequestId) (f : Request ν → Request ν) :
    (rs.modify id f).serial = rs.serial := by
  unfold modify
  split <;> rfl

@[simp] theorem serial_erase (rs : Requests ν) (id : RequestId) :
    (rs.erase id).serial = rs.serial := by
  unfold erase
  split <;> rfl

theorem fst_insert (rs : Requests ν) (r : Request ν) :
    (rs.insert r).1 = ⟨rs.nextKey, rs.serial + 1⟩ := rfl

theorem get?_insert (rs : Requests ν) (r : Request ν) (id : RequestId) :
    (rs.insert r).2.get? id = if id = (rs.insert r).1 then some r else rs.get? id := by
  by_cases hid : id = (rs.insert r).1
  · rw [if_pos hid, get?_eq_some_iff, hid]
    simp [insert, getElem?_place]
  · rw [if_neg hid]
    apply Option.ext
    intro r'
    rw [get?_eq_some_iff, get?_eq_some_iff]
    simp only [insert, getElem?_place]
    split
    · rename_i hkey
      constructor
      · intro h
        simp only [Option.some.injEq, Prod.mk.injEq] at h
        refine absurd ?_ hid
        rw [fst_insert, ← hkey, h.1]
      · intro h
        rw [hkey] at h
        exact absurd h (entry_nextKey rs _)
    · rfl

theorem get?_modify (rs : Requests ν) (id id' : RequestId) (f : Request ν → Request ν) :
    (rs.modify id f).get? id' = if id' = id then (rs.get? id').map f else rs.get? id' := by
  unfold modify
  split
  · rename_i h
    split
    · rename_i hid; rw [hid, h]; rfl
    · rfl
  · rename_i r h
    have hlt := (List.getElem?_eq_some_iff.mp (get?_eq_some_iff.mp h)).1
    apply Option.ext
    intro r'
    by_cases hid : id' = id
    · rw [if_pos hid, hid, get?_eq_some_iff]
      simp [h, hlt]
    · rw [if_neg hid, get?_eq_some_iff, get?_eq_some_iff]
      simp only [List.getElem?_set]
      split
      · rename_i hkey
        have hs : id.serial ≠ id'.serial := by
          intro hs
          cases id; cases id'; simp_all
        rw [← hkey, get?_eq_some_iff.mp h]
        simp [hs]
      · rfl

theorem get?_erase (rs : Requests ν) (id id' : RequestId) :
    (rs.erase id).get? id' = if id' = id then none else rs.get? id' := by
  unfold erase
  split
  · rename_i h
    split
    · rename_i hid; rw [hid, h]
    · rfl
  · rename_i r h
    have hlt := (List.getElem?_eq_some_iff.mp (get?_eq_some_iff.mp h)).1
    apply Option.ext
    intro r'
    by_cases hid : id' = id
    · rw [if_pos hid, get?_eq_some_iff, hid]
      simp [hlt]
    · rw [if_neg hid, get?_eq_some_iff, get?_eq_some_iff]
      simp only [List.getElem?_set]
      split
      · rename_i hkey
        have hs : id.serial ≠ id'.serial := by
          intro hs
          cases id; cases id'; simp_all
        rw [← hkey, get?_eq_some_iff.mp h]
        simp [hs]
      · rfl

theorem get?_erase_modify (rs : Requests ν) (id id' : RequestId) (f : Request ν → Request ν) :
    ((rs.modify id f).erase id).get? id' = if id' = id then none else rs.get? id' := by
  rw [get?_erase, get?_modify]
  split
  · rfl
  · rfl

theorem get?_insert_self (rs : Requests ν) (r : Request ν) :
    (rs.insert r).2.get? (rs.insert r).1 = some r := by
  rw [get?_insert, if_pos rfl]

theorem ne_insert_of_issued {rs : Requests ν} {id : RequestId} (r : Request ν)
    (h : rs.Issued id) : id ≠ (rs.insert r).1 := by
  intro hid
  exact not_issued_insert rs r (hid ▸ h)

theorem get?_insert_of_get? {rs : Requests ν} {id : RequestId} {r' : Request ν} (r : Request ν)
    (h : rs.get? id = some r') : (rs.insert r).2.get? id = some r' := by
  rw [get?_insert, if_neg (ne_insert_of_issued r (issued_of_get? h)), h]

theorem get?_insert_eq_some {rs : Requests ν} {id : RequestId} {r r' : Request ν}
    (h : (rs.insert r).2.get? id = some r') :
    (id = (rs.insert r).1 ∧ r' = r) ∨ rs.get? id = some r' := by
  rw [get?_insert] at h
  split at h
  · rename_i hid
    cases h
    exact .inl ⟨hid, rfl⟩
  · exact .inr h

theorem get?_modify_self {rs : Requests ν} {id : RequestId} {r : Request ν}
    (f : Request ν → Request ν) (h : rs.get? id = some r) :
    (rs.modify id f).get? id = some (f r) := by
  rw [get?_modify, if_pos rfl, h]
  rfl

theorem get?_modify_of_ne {rs : Requests ν} {id id' : RequestId} (f : Request ν → Request ν)
    (h : id' ≠ id) : (rs.modify id f).get? id' = rs.get? id' := by
  rw [get?_modify, if_neg h]

theorem get?_modify_eq_some {rs : Requests ν} {id id' : RequestId} {f : Request ν → Request ν}
    {r' : Request ν} (h : (rs.modify id f).get? id' = some r') :
    (id' = id ∧ ∃ r, rs.get? id = some r ∧ r' = f r) ∨ (id' ≠ id ∧ rs.get? id' = some r') := by
  rw [get?_modify] at h
  split at h
  · rename_i hid
    obtain ⟨r, hr, rfl⟩ := Option.map_eq_some_iff.mp h
    exact .inl ⟨hid, r, hid ▸ hr, rfl⟩
  · rename_i hid
    exact .inr ⟨hid, h⟩

theorem mem_live {rs : Requests ν} {id : RequestId} {r : Request ν} :
    (id, r) ∈ rs.live ↔ rs.get? id = some r := by
  rw [get?_eq_some_iff]
  simp only [live, List.mem_filterMap, Prod.exists, List.mem_zipIdx_iff_getElem?]
  constructor
  · rintro ⟨entry, k, hk, h⟩
    cases entry with
    | none => cases h
    | some entry =>
      obtain ⟨s, r'⟩ := entry
      simp only [Option.map_some, Option.some.injEq, Prod.mk.injEq] at h
      obtain ⟨rfl, rfl⟩ := h
      exact hk
  · intro h
    exact ⟨_, _, h, rfl⟩

theorem nodup_live (rs : Requests ν) : (rs.live.map (·.1)).Nodup := by
  have hk : (rs.entries.zipIdx.map (·.2)).Nodup := by
    rw [List.zipIdx_map_snd]
    exact List.nodup_range'
  rw [List.Nodup, List.pairwise_map] at hk
  rw [List.Nodup, List.pairwise_map, live, List.pairwise_filterMap]
  refine hk.imp ?_
  intro a b hab x hx y hy hxy
  obtain ⟨ea, ka⟩ := a
  obtain ⟨eb, kb⟩ := b
  cases ea with
  | none => cases hx
  | some ea =>
    cases eb with
    | none => cases hy
    | some eb =>
      simp only [Option.map_some, Option.some.injEq] at hx hy
      rw [← hx, ← hy] at hxy
      simp only [RequestId.mk.injEq] at hxy
      exact hab hxy.1

end Requests

end AsyncModule
