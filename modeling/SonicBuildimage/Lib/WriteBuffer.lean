/-
  Writes that are collected before they reach a table.

  `data` holds for each key the row to be set, or `none` for a row to be deleted; `flush` carries
  them out.  `seen` reads the table through what is collected: it is what the table will hold once
  everything is carried out, so that flushing early or late makes no difference (`seen_flush`).
-/
import SonicBuildimage.Lib.PyDict

namespace SonicBuildimage.Lib

variable {κ ν : Type} [DecidableEq κ]

structure WriteBuffer (κ ν : Type) where
  table : Dict κ ν
  data : Dict κ (Option ν)
  nodup : (Dict.keys data).Nodup

namespace WriteBuffer

/-- Nothing is collected. -/
def empty (table : Dict κ ν) : WriteBuffer κ ν := ⟨table, [], List.nodup_nil⟩

def put (b : WriteBuffer κ ν) (k : κ) (v : Option ν) : WriteBuffer κ ν :=
  ⟨b.table, Dict.set b.data k v, Dict.keys_set_nodup b.nodup k v⟩

/-- One collected write. -/
def write (table : Dict κ ν) (e : κ × Option ν) : Dict κ ν :=
  match e.2 with
  | some v => Dict.set table e.1 v
  | none => Dict.erase table e.1

def flush (b : WriteBuffer κ ν) : WriteBuffer κ ν := empty (b.data.foldl write b.table)

/-- The table as it will be. -/
def seen (b : WriteBuffer κ ν) (k : κ) : Option ν := (Dict.get? b.data k).getD (Dict.get? b.table k)

theorem seen_put (b : WriteBuffer κ ν) (k : κ) (v : Option ν) (k' : κ) :
    (b.put k v).seen k' = if k = k' then v else b.seen k' := by
  unfold seen put
  rw [Dict.get?_set]
  split
  · rfl
  · rfl

theorem seen_put_ne (b : WriteBuffer κ ν) {k k' : κ} (v : Option ν) (h : k ≠ k') :
    (b.put k v).seen k' = b.seen k' := by
  rw [seen_put, if_neg h]

theorem get?_write (table : Dict κ ν) (e : κ × Option ν) (k : κ) :
    Dict.get? (write table e) k = if e.1 = k then e.2 else Dict.get? table k := by
  obtain ⟨k', v⟩ := e
  cases v with
  | none => exact Dict.get?_erase table k' k
  | some v => exact Dict.get?_set table k' k v

/-- The writes are to different keys, so each is what is read afterwards. -/
theorem get?_foldl_write {data : Dict κ (Option ν)} (hd : (Dict.keys data).Nodup)
    (table : Dict κ ν) (k : κ) :
    Dict.get? (data.foldl write table) k = (Dict.get? data k).getD (Dict.get? table k) := by
  induction data generalizing table with
  | nil => rfl
  | cons e data ih =>
    obtain ⟨hnot, hd⟩ := List.nodup_cons.1 hd
    rw [List.foldl_cons, ih hd, get?_write, Dict.get?_cons]
    by_cases hk : e.1 = k
    · subst hk
      have hnone : Dict.get? data e.1 = none := by
        by_contra hne
        exact hnot ((Dict.mem_keys_iff data e.1).2 hne)
      rw [if_pos rfl, if_pos rfl, hnone]
      rfl
    · rw [if_neg hk, if_neg hk]

@[simp] theorem seen_flush (b : WriteBuffer κ ν) (k : κ) : b.flush.seen k = b.seen k :=
  get?_foldl_write b.nodup b.table k

theorem get?_table_flush (b : WriteBuffer κ ν) (k : κ) :
    Dict.get? b.flush.table k = b.seen k := b.seen_flush k

end WriteBuffer

end SonicBuildimage.Lib
