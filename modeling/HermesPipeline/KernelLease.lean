/-
What the lease operations of a store do to the row of one (workspace,
pipeline), for both stores, and the effect of the controller's lease calls.
-/
import HermesPipeline.KernelController
import HermesPipeline.KernelMemory
import HermesPipeline.KernelSqlite

namespace HermesPipeline

open Lib

/-- A store seen through its lease rows. -/
structure LeaseStore (σ : Type) where
  init : σ
  handle : Handler StoreOp StoreOp.Answer PyError σ
  row : σ → String × String → Option LeaseRecord
  /-- The records that can be saved. -/
  fits : LeaseRecord → Bool
  row_init : ∀ key, row init key = none
  row_empty : ∀ s pl, row s ("", pl) = none
  load : ∀ s ws pl, handle (.loadLease ws pl) s = (.ok (row s (ws, pl)), s)
  save : ∀ s record, fits record = true →
    (handle (.saveLease record) s).1 = .ok () ∧
      ∀ key, row (handle (.saveLease record) s).2 key =
        if key = record.key ∧ record.workspaceId ≠ "" then some record
        else row s key
  save_unfit : ∀ s record, fits record = false →
    handle (.saveLease record) s = (.error .persistence, s)
  delete : ∀ s ws pl, (handle (.deleteLease ws pl) s).1 = .ok () ∧
    ∀ key, row (handle (.deleteLease ws pl) s).2 key =
      if key = (ws, pl) then none else row s key
  deleteExpired : ∀ s now key,
    row (handle (.deleteExpiredLeases now) s).2 key = row s key ∨
      row (handle (.deleteExpiredLeases now) s).2 key = none

/-- Saving a record and returning it. -/
theorem LeaseStore.run_save {σ : Type} (impl : LeaseStore σ) (s : σ)
    (record : LeaseRecord) :
    (∃ s', ((ask (.saveLease record)).bind fun _ =>
          (.done record : StoreProgram LeaseRecord)).run impl.handle s =
        (.ok record, s') ∧ impl.fits record = true ∧
        ∀ key, impl.row s' key =
          if key = record.key ∧ record.workspaceId ≠ "" then some record
          else impl.row s key) ∨
      ((ask (.saveLease record)).bind fun _ =>
          (.done record : StoreProgram LeaseRecord)).run impl.handle s =
        (.error .persistence, s) := by
  simp only [ask, Program.run_bind, Program.run_perform]
  cases hfits : impl.fits record with
  | true =>
      obtain ⟨hsaved, hrows⟩ := impl.save s record hfits
      generalize impl.handle (.saveLease record) s = saved at hsaved hrows
      obtain ⟨answer, s'⟩ := saved
      cases hsaved
      exact Or.inl ⟨s', rfl, rfl, hrows⟩
  | false =>
      rw [impl.save_unfit s record hfits]
      exact Or.inr rfl

section Memory

variable (s : MemoryKernelStore)

theorem MemoryKernelStore.loadLease_saveLease (record : LeaseRecord)
    (key : String × String) :
    (s.saveLease record).loadLease key.1 key.2 =
      if key = record.key ∧ record.workspaceId ≠ "" then some record
      else s.loadLease key.1 key.2 := by
  obtain ⟨ws, pl⟩ := key
  by_cases hempty : record.workspaceId = ""
  · simp [saveLease, hempty]
  · by_cases hkey : (ws, pl) = record.key
    · obtain ⟨rfl, rfl⟩ := Prod.mk.inj hkey
      simp [saveLease, loadLease, hempty, LeaseRecord.key]
    · simp [saveLease, loadLease, hempty, hkey, Dict.get?_set_of_ne _ _ hkey]

theorem MemoryKernelStore.loadLease_deleteLease (ws pl : String)
    (key : String × String) :
    (s.deleteLease ws pl).loadLease key.1 key.2 =
      if key = (ws, pl) then none else s.loadLease key.1 key.2 := by
  by_cases hkey : key = (ws, pl)
  · subst hkey
    by_cases hempty : ws = "" <;> simp [deleteLease, loadLease, hempty]
  · rw [if_neg hkey]
    by_cases hempty : ws = ""
    · simp [deleteLease, hempty]
    · simp [deleteLease, loadLease, hempty, Dict.get?_pop_of_ne _ hkey]

theorem MemoryKernelStore.loadLease_deleteExpired (now : Int)
    (key : String × String) :
    (s.deleteExpiredLeases now).loadLease key.1 key.2 =
        s.loadLease key.1 key.2 ∨
      (s.deleteExpiredLeases now).loadLease key.1 key.2 = none := by
  by_cases hempty : key.1 = ""
  · simp [loadLease, hempty]
  · simp only [loadLease, deleteExpiredLeases, hempty, ↓reduceIte, Dict.get?,
      Keyed.find?_deleteWhere]
    cases s.leases.find? key with
    | none => exact Or.inl rfl
    | some entry =>
        by_cases hkept : entry.2.expiresAt ≥ now
        · exact Or.inl (by simp [Option.filter, hkept])
        · exact Or.inr (by simp [Option.filter, hkept])

/-- The memory store saves every record. -/
def memoryLeases (codec : Codec) : LeaseStore MemoryKernelStore where
  init := .init
  handle := MemoryKernelStore.handle codec
  row := fun s key => s.loadLease key.1 key.2
  fits := fun _ => true
  row_init := by
    intro key
    simp [MemoryKernelStore.loadLease, MemoryKernelStore.init]
  row_empty := fun _ _ => rfl
  load := fun _ _ _ => rfl
  save := fun s record _ => ⟨rfl, s.loadLease_saveLease record⟩
  save_unfit := fun _ _ hfits => absurd hfits (by decide)
  delete := fun s ws pl => ⟨rfl, s.loadLease_deleteLease ws pl⟩
  deleteExpired := fun s now key => s.loadLease_deleteExpired now key

end Memory

section Sqlite

variable (s : SqliteKernelStore)

/-- An empty workspace is never stored; the columns hold 64 bits. -/
def SqliteKernelStore.fitsLease (record : LeaseRecord) : Bool :=
  record.workspaceId = "" ||
    (fitsInt64 record.generation && fitsInt64 record.expiresAt)

theorem SqliteKernelStore.saveLease_fits {record : LeaseRecord}
    (hfits : fitsLease record = true) :
    (s.saveLease record).1 = .ok () ∧
      ∀ key : String × String, (s.saveLease record).2.loadLease key.1 key.2 =
        if key = record.key ∧ record.workspaceId ≠ "" then some record
        else s.loadLease key.1 key.2 := by
  by_cases hempty : record.workspaceId = ""
  · simp [saveLease, hempty]
  · simp only [fitsLease, hempty, decide_false, Bool.false_or] at hfits
    simp only [saveLease, hempty, hfits, ↓reduceIte, true_and]
    rintro ⟨ws, pl⟩
    by_cases hkey : (ws, pl) = record.key
    · obtain ⟨rfl, rfl⟩ := Prod.mk.inj hkey
      have hfind := s.leases.find?_upsert_self record
      rw [LeaseRecord.key] at hfind
      simp [loadLease, hempty, LeaseRecord.key, hfind]
    · simp [loadLease, hempty, hkey, s.leases.find?_upsert_of_ne hkey]

theorem SqliteKernelStore.saveLease_unfit {record : LeaseRecord}
    (hfits : fitsLease record = false) :
    s.saveLease record = (.error .persistence, s) := by
  simp only [fitsLease, Bool.or_eq_false_iff, decide_eq_false_iff_not] at hfits
  simp [saveLease, hfits]

theorem SqliteKernelStore.loadLease_deleteLease (ws pl : String)
    (key : String × String) :
    (s.deleteLease ws pl).loadLease key.1 key.2 =
      if key = (ws, pl) then none else s.loadLease key.1 key.2 := by
  by_cases hkey : key = (ws, pl)
  · subst hkey
    by_cases hempty : ws = "" <;> simp [deleteLease, loadLease, hempty]
  · rw [if_neg hkey]
    by_cases hempty : ws = ""
    · simp [deleteLease, hempty]
    · simp [deleteLease, loadLease, hempty, s.leases.find?_erase_of_ne hkey]

theorem SqliteKernelStore.loadLease_deleteExpired (now : Int)
    (key : String × String) :
    (s.deleteExpiredLeases now).2.loadLease key.1 key.2 =
        s.loadLease key.1 key.2 ∨
      (s.deleteExpiredLeases now).2.loadLease key.1 key.2 = none := by
  unfold deleteExpiredLeases
  split
  · by_cases hempty : key.1 = ""
    · simp [loadLease, hempty]
    · simp only [loadLease, hempty, ↓reduceIte, Keyed.find?_deleteWhere]
      cases s.leases.find? key with
      | none => simp
      | some row =>
          by_cases hexpired : row.expiresAt < now <;> simp [hexpired]
  · exact Or.inl rfl

def sqliteLeases (codec : Codec) : LeaseStore SqliteKernelStore where
  init := .init
  handle := SqliteKernelStore.handle codec
  row := fun s key => s.loadLease key.1 key.2
  fits := SqliteKernelStore.fitsLease
  row_init := by
    intro key
    simp [SqliteKernelStore.loadLease, SqliteKernelStore.init]
  row_empty := fun _ _ => rfl
  load := fun _ _ _ => rfl
  save := fun s _ hfits => s.saveLease_fits hfits
  save_unfit := fun s _ hfits => s.saveLease_unfit hfits
  delete := fun s ws pl => ⟨rfl, s.loadLease_deleteLease ws pl⟩
  deleteExpired := fun s now key => s.loadLease_deleteExpired now key

end Sqlite

end HermesPipeline
