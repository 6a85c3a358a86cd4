import WidgetView.Proofs.LineEnds
import WidgetView.Proofs.LintRuns

/-!
# Backups

What fixing leaves of the files. A run with fixing writes two files or none: the file that the view
comes from, and beside it a backup of what was read there. Both hold a text as it is read, so its
line ends have been unified; the backup has the bytes of the original exactly if there is no
carriage return in it.
-/
namespace WidgetView

/-! ### Names of backups -/

namespace Pathname

theorem splitSlashes_of_not_mem {cs : List Char} (h : '/' ∉ cs) : splitSlashes cs = [cs] := by
  induction cs with
  | nil => rfl
  | cons c cs ih =>
    rw [List.mem_cons, not_or] at h
    rw [splitSlashes, if_neg (Ne.symm h.1), ih h.2]

theorem not_mem_of_mem_splitSlashes {cs part : List Char} (h : part ∈ splitSlashes cs) :
    '/' ∉ part := by
  induction cs generalizing part with
  | nil =>
    obtain rfl := List.mem_singleton.mp h
    exact List.not_mem_nil
  | cons c cs ih =>
    rw [splitSlashes] at h
    split at h
    · rcases List.mem_cons.mp h with rfl | h
      · exact List.not_mem_nil
      · exact ih h
    · next hc =>
      split at h
      · obtain rfl := List.mem_singleton.mp h
        simpa using Ne.symm hc
      · next first parts hs =>
        rcases List.mem_cons.mp h with rfl | h
        · have hfirst := ih (hs ▸ List.mem_cons_self)
          simpa [Ne.symm hc] using hfirst
        · exact ih (hs ▸ List.mem_cons_of_mem _ h)

/-- A name is no part of a longer name that it is in, unless slashes cut it out there. -/
theorem not_mem_parts_of_lt {s part : String} (h : part.toList.length < s.toList.length)
    (hin : '/' ∈ s.toList → '/' ∈ part.toList) : part ∉ (ofString s).parts := by
  intro hmem
  obtain ⟨cs, hcs, rfl⟩ := List.mem_map.mp hmem
  rw [String.toList_ofList] at h hin
  have hsplit := (List.mem_filter.mp hcs).1
  have hnone : '/' ∉ s.toList := fun hs => not_mem_of_mem_splitSlashes hsplit (hin hs)
  rw [splitSlashes_of_not_mem hnone, List.mem_singleton] at hsplit
  rw [hsplit] at h
  exact Nat.lt_irrefl _ h

/-- The backup of a file is in the same directory, under a name of which the name of the file is no
part. -/
theorem backupPath_eq {p : Pathname} {dir : List String} {last : String}
    (h : p.parts = dir.concat last) :
    ∃ more, backupPath p = ⟨p.root, dir ++ more⟩ ∧ last ∉ more ∧
      (last = ".." → more = ["....bak"]) := by
  have hname : p.name = last := by simp [name, h]
  have hparent : p.parent = ⟨p.root, dir⟩ := by simp [parent, h]
  have hlist : (s!".{last}.bak").toList = '.' :: (last.toList ++ ".bak".toList) := by
    change ("." ++ last ++ ".bak").toList = _
    simp
  have hroot : (ofString s!".{last}.bak").root = "" := by simp [ofString, hlist, rootOf]
  refine ⟨(ofString s!".{last}.bak").parts, ?_, ?_, ?_⟩
  · rw [backupPath, hname, hparent, join, isAbsolute, hroot]
    rfl
  · refine not_mem_parts_of_lt ?_ ?_
    · simp [hlist]
    · simp [hlist]
  · rintro rfl
    decide

end Pathname

namespace FileSystem

variable {fs : FileSystem} {p : Pathname} {bytes : List UInt8} {place goal parts : List String}

/-- A walk that comes to an end goes through the parts one by one. -/
theorem walk_eq_ok {path : String} (h : fs.walk path place parts = .ok goal) :
    goal = parts.foldl enter place := by
  induction parts generalizing place with
  | nil => exact (Except.ok.inj h).symm
  | cons part parts ih =>
    rw [walk] at h
    split at h
    · cases h
    · cases h
    · split at h
      · cases h
      · exact ih h

theorem locate_eq_ok (h : fs.locate p = .ok place) : place = p.parts.foldl enter (fs.start p) := by
  simp only [locate] at h
  split at h
  · cases h
  · split at h
    · cases h
    · exact walk_eq_ok h

/-- Parts lead back through some of the names they start from, and then on through some of them. -/
theorem foldl_enter (place parts : List String) :
    ∃ n more, parts.foldl enter place = place.take n ++ more ∧ more ⊆ parts := by
  induction parts generalizing place with
  | nil => exact ⟨place.length, [], by simp, List.Subset.refl _⟩
  | cons part parts ih =>
    obtain ⟨n, more, heq, hsub⟩ := ih (enter place part)
    rw [List.foldl_cons, heq, enter]
    split
    · refine ⟨min n (place.length - 1), more, ?_, List.subset_cons_of_subset _ hsub⟩
      rw [List.dropLast_eq_take, List.take_take]
    · rcases Nat.lt_or_ge place.length n with hn | hn
      · refine ⟨place.length, part :: more, ?_, List.cons_subset_cons _ hsub⟩
        rw [List.take_of_length_le (by simpa using hn)]
        simp
      · refine ⟨n, more, ?_, List.subset_cons_of_subset _ hsub⟩
        rw [List.take_append_of_le_length hn]

theorem parts_ne_nil_of_file (hp : fs.locate p = .ok place)
    (hfile : fs.status place = .file bytes) : p.parts ≠ [] := by
  intro hparts
  have hstart : place = fs.start p := by simpa [hparts] using locate_eq_ok hp
  rw [hstart, status_start] at hfile
  cases hfile

/-- A file and its backup are at different places. -/
theorem locate_backupPath_ne (hp : fs.locate p = .ok place)
    (hfile : fs.status place = .file bytes) : fs.locate (backupPath p) ≠ .ok place := by
  intro hbackup
  obtain ⟨dir, last, hparts⟩ :=
    (List.eq_nil_or_concat p.parts).resolve_left (parts_ne_nil_of_file hp hfile)
  obtain ⟨more, hmore, hlast, hback⟩ := Pathname.backupPath_eq hparts
  -- both names lead through one directory, and go on from there
  have hplace := locate_eq_ok hp
  have hplace' : place = (dir ++ more).foldl enter (fs.start p) := by
    rw [hmore] at hbackup
    exact locate_eq_ok hbackup
  rw [hparts, List.concat_eq_append, List.foldl_append] at hplace
  rw [List.foldl_append] at hplace'
  generalize dir.foldl enter (fs.start p) = mid at hplace hplace'
  have heq : enter mid last = more.foldl enter mid := hplace.symm.trans hplace'
  by_cases hdots : last = ".."
  · rw [hback hdots, hdots] at heq
    have hlength : mid.dropLast.length = (mid ++ ["....bak"]).length := congrArg List.length heq
    simp only [List.length_append, List.length_dropLast, List.length_singleton] at hlength
    omega
  · rw [enter, if_neg hdots] at heq
    obtain ⟨n, others, hothers, hsub⟩ := foldl_enter mid more
    rw [hothers] at heq
    rcases List.eq_nil_or_concat others with rfl | ⟨front, final, rfl⟩
    · have hlength := congrArg List.length heq
      simp only [List.length_append, List.length_take, List.length_singleton,
        List.length_nil] at hlength
      omega
    · rw [List.concat_eq_append, ← List.append_assoc] at heq
      obtain ⟨-, hfinal⟩ := List.append_inj' heq rfl
      obtain rfl := List.singleton_inj.mp hfinal
      exact hlast (hsub (by simp))

/-- A text is stored in a file. -/
def Holds (fs : FileSystem) (p : Pathname) (cs : List Char) : Prop :=
  fs.readBytes p = .ok (Text.Utf8.encode cs)

/-- What is read as a text is stored as one, with line ends of its own. -/
theorem readText_eq_ok {text : List Char} (h : fs.readText p = .ok text) :
    ∃ cs, fs.Holds p cs ∧ text = Text.unifyLineEnds cs := by
  unfold readText at h
  split at h
  · cases h
  · next bytes hbytes =>
    split at h
    · cases h
    · next cs hcs =>
      obtain rfl := Text.Utf8.decode_eq_ok_iff.mp hcs
      exact ⟨cs, hbytes, (Except.ok.inj h).symm⟩

theorem Holds.eq {cs cs' : List Char} (h : fs.Holds p cs) (h' : fs.Holds p cs') : cs = cs' := by
  have hbytes := Except.ok.inj (h.symm.trans h')
  have hdecode := Text.Utf8.decode_eq_ok_iff.mpr hbytes
  exact Except.ok.inj ((Text.Utf8.decode_eq_ok_iff.mpr rfl).symm.trans hdecode)

/-- A file was given another text, with a backup of it beside it, and nothing else was done. -/
structure Rewritten (before after : FileSystem) (p : Pathname) (kept fixed : List Char) : Prop where
  backup : after.Holds (backupPath p) kept
  fixed : after.Holds p fixed
  others : ∀ place, before.locate p ≠ .ok place → before.locate (backupPath p) ≠ .ok place →
    after.status place = before.status place
  cwd : after.cwd = before.cwd

/-- Writing the backup of a file and then the file itself. The second write does not meet the first
one. -/
theorem rewritten_of_writes {written kept : FileSystem} {cs text fixed : List Char}
    (hp : fs.Holds p cs) (hw : fs.writeText (backupPath p) text = .ok kept)
    (hw' : kept.writeText p fixed = .ok written) :
    Rewritten fs written p text fixed := by
  obtain ⟨place, hplace, hfile⟩ := readBytes_eq_ok_iff.mp hp
  obtain ⟨beside, hbackup, hdir, rfl⟩ := writeBytes_eq_ok_iff.mp hw
  obtain ⟨into, horigin, hdir', rfl⟩ := writeBytes_eq_ok_iff.mp hw'
  obtain rfl : place = into := Except.ok.inj ((locate_put hdir hplace).symm.trans horigin)
  have hne : beside ≠ place := by
    rintro rfl
    exact locate_backupPath_ne hplace hfile hbackup
  refine ⟨?_, ?_, ?_, rfl⟩
  · apply readBytes_eq_ok_iff.mpr
    refine ⟨beside, locate_put hdir' (locate_put hdir hbackup), ?_⟩
    rw [status_put_other hne, status_put_same hdir]
  · apply readBytes_eq_ok_iff.mpr
    exact ⟨place, locate_put hdir' horigin, status_put_same hdir'⟩
  · intro other hfirst hsecond
    have hother : other ≠ place := fun heq => hfirst (heq ▸ hplace)
    have hother' : other ≠ beside := fun heq => hsecond (heq ▸ hbackup)
    rw [status_put_other hother, status_put_other hother']

end FileSystem

namespace Lint

open Command

variable {path : Pathname} {c : Console} {k : Checked} {fixed : List Char}

/-- The files that a command leaves, whether it ended or was interrupted. -/
def filesAfter {α : Type} : EStateM.Result Interruption Console α → FileSystem
  | .ok _ c | .error _ c => c.files

theorem filesAfter_checkOnly : filesAfter (checkOnly path c) = c.files := by
  by_cases hb : Blocked c.files path
  · obtain ⟨f, hf⟩ := check_of_blocked hb
    rw [checkOnly, bind_of_error hf]
    rfl
  · obtain ⟨n, c', h⟩ := checkOnly_ends_iff.mpr hb
    rw [h]
    exact files_of_checkOnly h

/-- A file has a fixed text, and beside it a backup can be written. -/
def Fixable (fs : FileSystem) (path : Pathname) : Prop :=
  ∃ k fixed kept, Fixes fs path k fixed ∧ fs.writeText (backupPath k.origin) k.source = .ok kept

/-- Without a fixed text, or without a place for its backup, the files stay as they are. -/
theorem filesAfter_of_not_fixable (h : ¬Fixable c.files path) :
    filesAfter (file path true c) = c.files := by
  change filesAfter (checkAndFix path c) = c.files
  by_cases hb : Blocked c.files path
  · obtain ⟨f, hf⟩ := check_of_blocked hb
    rw [checkAndFix, bind_of_error hf]
    rfl
  rcases check_of_not_blocked hb with ⟨line, hcheck⟩ | ⟨k, hreads, -⟩
  · rw [checkAndFix, bind_of_ok hcheck]
    rfl
  rcases hreads.fixing with hsame | ⟨hf, e, ha⟩ | ⟨fixed, hfixes⟩
  · rw [checkAndFix_eq_report hreads hsame, report_eq]
    rfl
  · rw [checkAndFix_of_template hreads hf ha]
    rfl
  · cases hw : c.files.writeText (backupPath k.origin) k.source with
    | error e =>
      rw [checkAndFix_of_backup hfixes hw]
      rfl
    | ok kept => exact absurd ⟨k, fixed, kept, hfixes, hw⟩ h

/-- A file that is fixed is rewritten, with the text that was read in its backup. -/
theorem rewritten_of_fixes {kept : FileSystem} (h : Fixes c.files path k fixed)
    (hw : c.files.writeText (backupPath k.origin) k.source = .ok kept) :
    FileSystem.Rewritten c.files (filesAfter (file path true c)) k.origin k.source fixed := by
  obtain ⟨cs, hcs, -⟩ := FileSystem.readText_eq_ok h.reads.text
  obtain ⟨written, hw'⟩ := h.reads.writable hw fixed
  obtain ⟨c₁, rfl, hagain⟩ := checkAndFix_of_written h hw hw'
  change FileSystem.Rewritten c.files (filesAfter (checkAndFix path c)) k.origin k.source fixed
  rw [hagain, filesAfter_checkOnly]
  exact FileSystem.rewritten_of_writes hcs hw hw'

end Lint

open Lint in
/-- Linting with fixing changes no file, or it rewrites the origin of the view and writes its
backup. The rewritten text keeps every line that no fix names, with a line feed behind it if
something ended it. The backup has what the origin had exactly if there was no carriage return, and
then all line ends are kept as well. -/
theorem fixing_rewrites_origin (path : Pathname) (c : Command.Console) :
    (¬Fixable c.files path ∧ filesAfter (file path true c) = c.files) ∨
      ∃ k fixed cs, Fixes c.files path k fixed ∧ c.files.Holds k.origin cs ∧
        FileSystem.Rewritten c.files (filesAfter (file path true c)) k.origin
          (Text.unifyLineEnds cs) fixed ∧
        Text.KeepsLines (fun n => ∃ f ∈ k.report.fixes, f.line = n) Text.unifyLineEnds cs fixed ∧
        ((filesAfter (file path true c)).Holds (backupPath k.origin) cs ↔ '\r' ∉ cs) ∧
        ('\r' ∉ cs → Text.KeepsLines (fun n => ∃ f ∈ k.report.fixes, f.line = n) id cs fixed) := by
  by_cases hfixable : Fixable c.files path
  · obtain ⟨k, fixed, kept, h, hw⟩ := hfixable
    obtain ⟨cs, hcs, hsource⟩ := FileSystem.readText_eq_ok h.reads.text
    have hrewritten := rewritten_of_fixes h hw
    have happlied := h.applied
    rw [hsource] at hrewritten happlied
    have hkeeps := applyFixes_keepsLines happlied
    refine .inr ⟨k, fixed, cs, h, hcs, hrewritten, hkeeps, ?_, hkeeps.same_ends⟩
    rw [← Text.unifyLineEnds_eq_self_iff]
    constructor
    · exact hrewritten.backup.eq
    · intro hsame
      exact hsame ▸ hrewritten.backup
  · exact .inl ⟨hfixable, filesAfter_of_not_fixable hfixable⟩

open Lint in
/-- A view with a carriage return before every line feed, in a directory beside the working
directory. Its backup has the line feeds alone, and so has the fixed text, although the only fix is
for the second line. -/
theorem fixing_loses_returns :
    let path := Pathname.ofString "../views/view"
    let cs :=
      "gtk::Box \x7b\r\n gtk::Label \x7b child: \x7b expnd: true \x7d \x7d,\r\n\x7d\r\n".toList
    let files : FileSystem := {
      nodes := ⟨[(["views"], .directory), (["views", "view"], .file (Text.Utf8.encode cs))]⟩
      cwd := ["work"] }
    let after := filesAfter (file path true { files := files })
    let kept := "gtk::Box \x7b\n gtk::Label \x7b child: \x7b expnd: true \x7d \x7d,\n\x7d\n".toList
    let fixed :=
      "gtk::Box \x7b\n gtk::Label \x7b child: \x7b expand: true \x7d \x7d,\n\x7d\n".toList
    files.Holds path cs ∧ ¬after.Holds (backupPath path) cs ∧
      after.Holds (Pathname.ofString "/views/.view.bak") kept ∧ after.Holds path fixed := by
  simp only [FileSystem.Holds]
  decide +kernel

end WidgetView
