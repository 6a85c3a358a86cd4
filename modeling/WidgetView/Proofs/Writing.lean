import Mathlib
import WidgetView.FileSystem

/-!
# Writing a file

What a write does to the files. A write puts one file in place and leaves every directory as it is,
so names that led somewhere before lead to the same place after it.
-/
namespace WidgetView.FileSystem

variable {fs fs' : FileSystem} {p q : Pathname} {bytes : List UInt8} {place into : List String}

/-- The files with one more file, or with other bytes in one of them. -/
def put (fs : FileSystem) (into : List String) (bytes : List UInt8) : FileSystem :=
  { fs with nodes := fs.nodes.insert into (.file bytes) }

@[simp] theorem cwd_put : (fs.put into bytes).cwd = fs.cwd := rfl

@[simp] theorem start_put : (fs.put into bytes).start p = fs.start p := rfl

/-- The working directory and what is above it are directories, whatever the files are. -/
theorem status_above (h : place <+: fs.cwd) : fs.status place = .directory := by
  rw [status, if_pos (List.isPrefixOf_iff_prefix.mpr h)]

theorem status_start : fs.status (fs.start p) = .directory := by
  apply status_above
  rw [start]
  split
  · exact List.nil_prefix
  · exact List.prefix_rfl

theorem status_put_same (h : fs.status into ≠ .directory) :
    (fs.put into bytes).status into = .file bytes := by
  rw [status, cwd_put,
    if_neg fun hprefix => h (status_above (List.isPrefixOf_iff_prefix.mp hprefix))]
  simp [put]

theorem status_put_other (h : place ≠ into) :
    (fs.put into bytes).status place = fs.status place := by
  simp only [status, put, Table.get?_insert_other _ _ _ _ h]

/-- Directories stay directories when a file is put where none of them is. -/
theorem walk_put {path : String} {parts goal : List String} (hinto : fs.status into ≠ .directory)
    (h : fs.walk path place parts = .ok goal) :
    (fs.put into bytes).walk path place parts = .ok goal := by
  induction parts generalizing place with
  | nil => exact h
  | cons part parts ih =>
    rw [walk] at h ⊢
    cases hplace : fs.status place with
    | file bytes => simp [hplace] at h
    | absent => simp [hplace] at h
    | directory =>
      have hne : place ≠ into := by
        rintro rfl
        exact hinto hplace
      rw [status_put_other hne, hplace]
      simp only [hplace] at h ⊢
      split at h
      · cases h
      · next hlong =>
        rw [if_neg hlong]
        exact ih h

theorem locate_put (hinto : fs.status into ≠ .directory) (h : fs.locate p = .ok place) :
    (fs.put into bytes).locate p = .ok place := by
  simp only [locate, start_put] at h ⊢
  split at h
  · cases h
  · split at h
    · cases h
    · next hnull hlong =>
      rw [if_neg hnull, if_neg hlong]
      exact walk_put hinto h

theorem readBytes_eq_ok_iff :
    fs.readBytes p = .ok bytes ↔ ∃ place, fs.locate p = .ok place ∧
      fs.status place = .file bytes := by
  unfold readBytes
  cases fs.locate p with
  | error e => simp
  | ok place => cases h : fs.status place <;> simp [h]

/-- A write puts a file where no directory is. -/
theorem writeBytes_eq_ok_iff : fs.writeBytes p bytes = .ok fs' ↔
    ∃ into, fs.locate p = .ok into ∧ fs.status into ≠ .directory ∧ fs' = fs.put into bytes := by
  unfold writeBytes
  cases fs.locate p with
  | error e => simp
  | ok into => cases h : fs.status into <;> simp [h, put, eq_comm]

/-- What can be read can still be written to after another write. -/
theorem writeBytes_after_writeBytes {b b' : List UInt8} (hread : fs.readBytes p = .ok bytes)
    (hwrite : fs.writeBytes q b = .ok fs') : ∃ fs'', fs'.writeBytes p b' = .ok fs'' := by
  obtain ⟨place, hp, hfile⟩ := readBytes_eq_ok_iff.mp hread
  obtain ⟨into, -, hdir, rfl⟩ := writeBytes_eq_ok_iff.mp hwrite
  refine ⟨_, writeBytes_eq_ok_iff.mpr ⟨place, locate_put hdir hp, ?_, rfl⟩⟩
  by_cases heq : place = into
  · rw [heq, status_put_same hdir]
    simp
  · rw [status_put_other heq, hfile]
    simp

theorem readBytes_of_readText {cs : List Char} (h : fs.readText p = .ok cs) :
    ∃ bytes, fs.readBytes p = .ok bytes := by
  unfold readText at h
  split at h
  · cases h
  · next bytes hbytes => exact ⟨bytes, hbytes⟩

end WidgetView.FileSystem
