import WidgetView.Command.Lint
import WidgetView.Proofs.Blame
import WidgetView.Proofs.FileFaults
import WidgetView.Proofs.Writing

/-!
# Which lint runs end

Which runs of the linter end. A file that is missing or does not parse is counted and the next file
follows. A file that is there but holds no text, or that names such a file, stops the run, and so
does a fix that cannot be carried out; the files after it are then not linted.
-/
namespace WidgetView

namespace Command

/-! ### Steps of a command -/

section

variable {α β : Type} {x : Job α} {f : α → Job β} {a : α} {e : Interruption} {c c' : Console}

theorem bind_of_ok (h : x c = .ok a c') : (x >>= f) c = f a c' := by
  simp only [bind, EStateM.bind, h]

theorem bind_of_error (h : x c = .error e c') : (x >>= f) c = .error e c' := by
  simp only [bind, EStateM.bind, h]

theorem bind_getFiles (g : FileSystem → Job β) (c : Console) : (getFiles >>= g) c = g c.files c :=
  rfl

end

theorem writeFile_of_ok {c : Console} {fs : FileSystem} {p : Pathname} {text : List Char}
    (h : c.files.writeText p text = .ok fs) :
    writeFile p text c = .ok () { c with files := fs } := by
  rw [writeFile, bind_getFiles, h]
  rfl

theorem writeFile_of_error {c : Console} {p : Pathname} {text : List Char} {e : FileFault}
    (h : c.files.writeText p text = .error e) : writeFile p text c = .error (.file e) c := by
  rw [writeFile, bind_getFiles, h]
  rfl

end Command

namespace Lint

open Command

variable {fs fs' : FileSystem} {path : Pathname} {c c' : Console} {k : Checked} {fixed : List Char}

/-! ### One file -/

/-- No view can be looked for in a file: there is something under its name that cannot be read as a
text, or it holds nothing but the name of such a file. -/
inductive Blocked (fs : FileSystem) (path : Pathname) : Prop where
  | unreadable {e : FileFault} (h : fs.readText path = .error e) (he : ∀ name, e ≠ .missing name)
  | names {t : Token} {s : String} (h : Source.fileTokens fs path = .ok [t])
      (hs : t.string? = some s)
      (hg : fs.Garbled (path.parent.join (Pathname.ofString s)))

/-- What is known of a file whose view was read. -/
structure Reads (fs : FileSystem) (path : Pathname) (k : Checked) : Prop where
  view : ∃ v, (Source.viewOfFile fs path {}).1 = .ok v ∧ k.report = validate v
  origin : Source.origin fs path = .ok k.origin
  text : fs.readText k.origin = .ok k.source

/-- The origin of a view that was read can be read as a text. -/
theorem exists_origin {v : View} (h : (Source.viewOfFile fs path {}).1 = .ok v) :
    ∃ p text, Source.origin fs path = .ok p ∧ fs.readText p = .ok text := by
  unfold Source.viewOfFile at h
  split at h
  · cases h
  · next found hfile =>
    obtain ⟨us, hfollow, -⟩ := Source.view_eq_ok (Prod.ext h rfl)
    rcases Source.follow_eq_ok hfollow with ⟨hname, -⟩ | ⟨t, s, rfl, hs, hcall⟩
    · obtain ⟨text, -, htext, -, -⟩ := Source.fileTokens_eq_ok hfile
      exact ⟨path, text, Source.origin_of_fileName? hfile hname, htext⟩
    · obtain ⟨text, -, htext, -, -⟩ := Source.macroTokens_eq_ok hcall
      exact ⟨_, text, Source.origin_of_string hfile hs, htext⟩

/-- The view of a text passes on a fault only from the file that a lone string names. -/
theorem blocked_of_fault {source : List Char} {f : FileFault}
    (hsource : fs.readText path = .ok source)
    (h : (Source.viewOfFile fs path {}).1 = .error (.file f)) : Blocked fs path := by
  unfold Source.viewOfFile at h
  split at h
  · next e htokens =>
    obtain rfl := Except.error.inj h
    simp only [Source.fileTokens, hsource] at htokens
    split at htokens <;> cases htokens
  · next found hfile =>
    obtain ⟨t, s, rfl, hs, hg⟩ := Source.view_fault_iff.mp ⟨f, h⟩
    exact .names hfile hs hg

theorem check_of_reads (h : Reads c.files path k) : check path c = .ok (.ok k) c := by
  obtain ⟨⟨v, hview, hreport⟩, horigin, htext⟩ := h
  obtain ⟨source, hsource⟩ : ∃ source, c.files.readText path = .ok source := by
    unfold Source.viewOfFile at hview
    split at hview
    · cases hview
    · next found hfile =>
      obtain ⟨source, -, hsource, -⟩ := Source.fileTokens_eq_ok hfile
      exact ⟨source, hsource⟩
  rw [check_of_view hsource hview horigin htext, ← hreport]

theorem check_of_blocked (h : Blocked c.files path) : ∃ f, check path c = .error (.file f) c := by
  cases h with
  | @unreadable e h he =>
    refine ⟨e, ?_⟩
    rw [check, bind_getFiles, h]
    cases e with
    | missing name => exact absurd rfl (he name)
    | _ => rfl
  | names h hs hg =>
    obtain ⟨source, ts, hsource, -, -⟩ := Source.fileTokens_eq_ok h
    obtain ⟨f, hf⟩ : ∃ f, (Source.view c.files path.parent _ {}).1 = .error (.file f) :=
      Source.view_fault_iff.mpr ⟨_, _, rfl, hs, hg⟩
    have hview : (Source.viewOfFile c.files path {}).1 = .error (.file f) := by
      simp only [Source.viewOfFile, h, hf]
    refine ⟨f, ?_⟩
    simp only [check, bind_getFiles, hsource, hview]
    rfl

/-- Unless it is blocked, a file is checked: it counts as one error and that is printed, or it has a
view. -/
theorem check_of_not_blocked (h : ¬Blocked c.files path) :
    (∃ line, check path c = .ok (.error ⟨1, 0, 0⟩) (c.printed [line])) ∨
      ∃ k, Reads c.files path k ∧ check path c = .ok (.ok k) c := by
  cases hsource : c.files.readText path with
  | error e =>
    by_cases he : ∃ name, e = .missing name
    · obtain ⟨name, rfl⟩ := he
      left
      refine ⟨s!"{path}: file not found", ?_⟩
      rw [check, bind_getFiles, hsource]
      rfl
    · exact absurd (.unreadable hsource fun name heq => he ⟨name, heq⟩) h
  | ok source =>
    cases hview : (Source.viewOfFile c.files path {}).1 with
    | error e =>
      cases e with
      | file f => exact absurd (blocked_of_fault hsource hview) h
      | lexical e | parse e =>
        left
        refine ⟨s!"{path}: parse error: {e.message}", ?_⟩
        simp only [check, bind_getFiles, hsource, hview]
        rfl
    | ok v =>
      obtain ⟨p, text, horigin, htext⟩ := exists_origin hview
      have hreads : Reads c.files path ⟨p, text, validate v⟩ := ⟨⟨v, hview, rfl⟩, horigin, htext⟩
      exact .inr ⟨_, hreads, check_of_reads hreads⟩

theorem report_eq (k : Checked) (c : Console) : report k c =
    .ok (counts k.report)
      (c.printed ((k.report.errors ++ k.report.warnings).map (diagnosticLine k.origin))) := by
  rw [report, bind_of_ok (printAll_eq _ c)]
  rfl

/-- A command ended, with some result. -/
def Ends {α : Type} (r : EStateM.Result Interruption Console α) : Prop := ∃ a c, r = .ok a c

theorem not_ends_of_error {α : Type} {r : EStateM.Result Interruption Console α} {e : Interruption}
    (h : r = .error e c) : ¬Ends r := by
  rintro ⟨a, c', hend⟩
  rw [h] at hend
  cases hend

theorem checkOnly_ends_iff : Ends (checkOnly path c) ↔ ¬Blocked c.files path := by
  constructor
  · intro hend hblocked
    obtain ⟨f, hf⟩ := check_of_blocked hblocked
    exact not_ends_of_error (bind_of_error hf) hend
  · intro h
    rcases check_of_not_blocked h with ⟨line, hcheck⟩ | ⟨k, -, hcheck⟩
    · exact ⟨_, _, bind_of_ok hcheck⟩
    · exact ⟨_, _, (bind_of_ok hcheck).trans (report_eq k c)⟩

/-! ### One file with fixes -/

theorem Reads.eq {k' : Checked} (h : Reads fs path k) (h' : Reads fs path k') : k = k' := by
  have hcheck := (check_of_reads (c := { files := fs }) h).symm.trans (check_of_reads h')
  exact Except.ok.inj (EStateM.Result.ok.inj hcheck).1

/-- A text with fixes that is to be written in place of the text of the origin. -/
structure Fixes (fs : FileSystem) (path : Pathname) (k : Checked) (fixed : List Char) : Prop where
  reads : Reads fs path k
  found : k.report.fixes ≠ []
  applied : applyFixes k.source k.report.fixes = .ok fixed
  changed : fixed ≠ k.source

/-- The fixes of a file cannot be carried out: a replacement is no template, the backup cannot be
written, or no view can be looked for once the fixed text is written. -/
inductive Unfixable (fs : FileSystem) (path : Pathname) : Prop where
  | template {k : Checked} {e : TemplateError} (h : Reads fs path k) (hf : k.report.fixes ≠ [])
      (ha : applyFixes k.source k.report.fixes = .error e)
  | backup {k : Checked} {fixed : List Char} {e : FileFault} (h : Fixes fs path k fixed)
      (hw : fs.writeText (backupPath k.origin) k.source = .error e)
  | again {k : Checked} {fixed : List Char} {kept written : FileSystem} (h : Fixes fs path k fixed)
      (hw : fs.writeText (backupPath k.origin) k.source = .ok kept)
      (hw' : kept.writeText k.origin fixed = .ok written) (hb : Blocked written path)

theorem replaceFile_of_ok {kept written : FileSystem}
    (hw : c.files.writeText (backupPath k.origin) k.source = .ok kept)
    (hw' : kept.writeText k.origin fixed = .ok written) : ∃ lines, replaceFile k fixed c =
      .ok () (({ c with files := written } : Console).printed lines) := by
  refine ⟨[s!"{k.origin}: applied {k.report.fixes.length} fix(es)",
    s!"  Pre-fix backup: {backupPath k.origin}"], ?_⟩
  rw [replaceFile, bind_of_ok (writeFile_of_ok hw),
    bind_of_ok (writeFile_of_ok (c := { c with files := kept }) hw')]
  rfl

/-- The origin of a view that was read can be written to, also after the backup was written. -/
theorem Reads.writable {kept : FileSystem} (h : Reads fs path k)
    (hw : fs.writeText (backupPath k.origin) k.source = .ok kept) (text : List Char) :
    ∃ written, kept.writeText k.origin text = .ok written := by
  obtain ⟨bytes, hbytes⟩ := FileSystem.readBytes_of_readText h.text
  exact FileSystem.writeBytes_after_writeBytes hbytes hw

theorem Fixes.eq {k' : Checked} {fixed' : List Char} (h : Fixes fs path k fixed)
    (h' : Fixes fs path k' fixed') : k = k' ∧ fixed = fixed' := by
  obtain rfl := h.reads.eq h'.reads
  exact ⟨rfl, Except.ok.inj (h.applied.symm.trans h'.applied)⟩

/-- What fixing comes to for a view that was read. -/
theorem Reads.fixing (h : Reads fs path k) :
    (k.report.fixes = [] ∨ applyFixes k.source k.report.fixes = .ok k.source) ∨
      (k.report.fixes ≠ [] ∧ ∃ e, applyFixes k.source k.report.fixes = .error e) ∨
        ∃ fixed, Fixes fs path k fixed := by
  by_cases hf : k.report.fixes = []
  · exact .inl (.inl hf)
  cases ha : applyFixes k.source k.report.fixes with
  | error e => exact .inr (.inl ⟨hf, e, rfl⟩)
  | ok fixed =>
    by_cases hsame : fixed = k.source
    · exact .inl (.inr (by rw [hsame]))
    · exact .inr (.inr ⟨fixed, h, hf, ha, hsame⟩)

/-- Fixing a file without anything to write is linting it. -/
theorem checkAndFix_eq_report (h : Reads c.files path k)
    (hsame : k.report.fixes = [] ∨ applyFixes k.source k.report.fixes = .ok k.source) :
    checkAndFix path c = report k c := by
  rw [checkAndFix, bind_of_ok (check_of_reads h)]
  dsimp only
  split
  · rfl
  · next hne =>
    rw [hsame.resolve_left hne]
    simp only [↓reduceIte]

theorem checkAndFix_of_unchanged (h : Reads c.files path k)
    (hsame : k.report.fixes = [] ∨ applyFixes k.source k.report.fixes = .ok k.source) :
    Ends (checkAndFix path c) :=
  ⟨_, _, (checkAndFix_eq_report h hsame).trans (report_eq k c)⟩

theorem checkAndFix_of_template {e : TemplateError} (h : Reads c.files path k)
    (hf : k.report.fixes ≠ []) (ha : applyFixes k.source k.report.fixes = .error e) :
    checkAndFix path c = .error (.template e) c := by
  rw [checkAndFix, bind_of_ok (check_of_reads h)]
  simp only [if_neg hf, ha]
  rfl

theorem checkAndFix_of_backup {e : FileFault} (h : Fixes c.files path k fixed)
    (hw : c.files.writeText (backupPath k.origin) k.source = .error e) :
    checkAndFix path c = .error (.file e) c := by
  rw [checkAndFix, bind_of_ok (check_of_reads h.reads)]
  simp only [if_neg h.found, h.applied, if_neg h.changed]
  exact bind_of_error (bind_of_error (writeFile_of_error hw))

/-- Once the fixed text is written, the file is linted again among the files as they are then. -/
theorem checkAndFix_of_written {kept written : FileSystem} (h : Fixes c.files path k fixed)
    (hw : c.files.writeText (backupPath k.origin) k.source = .ok kept)
    (hw' : kept.writeText k.origin fixed = .ok written) : ∃ c₁ : Console, c₁.files = written ∧
      checkAndFix path c = checkOnly path c₁ := by
  obtain ⟨lines, hreplace⟩ := replaceFile_of_ok hw hw'
  refine ⟨({ c with files := written } : Console).printed lines, rfl, ?_⟩
  rw [checkAndFix, bind_of_ok (check_of_reads h.reads)]
  simp only [if_neg h.found, h.applied, if_neg h.changed]
  exact bind_of_ok hreplace

/-- A file with nothing to write is not unfixable. -/
theorem Reads.not_unfixable (h : Reads fs path k)
    (hsame : k.report.fixes = [] ∨ applyFixes k.source k.report.fixes = .ok k.source) :
    ¬Unfixable fs path := by
  have hfixes : ∀ {k' fixed}, ¬Fixes fs path k' fixed := by
    intro k' fixed h'
    obtain rfl := h.eq h'.reads
    rcases hsame with hf | ha
    · exact h'.found hf
    · exact h'.changed (Except.ok.inj (h'.applied.symm.trans ha))
  rintro (⟨h', hf, ha⟩ | h' | h')
  · obtain rfl := h.eq h'
    rw [hsame.resolve_left hf] at ha
    cases ha
  · exact hfixes h'
  · exact hfixes h'

/-- With its fixed text written, a file is unfixable if it is blocked then. -/
theorem Fixes.unfixable_iff {kept written : FileSystem} (h : Fixes fs path k fixed)
    (hw : fs.writeText (backupPath k.origin) k.source = .ok kept)
    (hw' : kept.writeText k.origin fixed = .ok written) :
    Unfixable fs path ↔ Blocked written path := by
  refine ⟨?_, .again h hw hw'⟩
  rintro (⟨h', hf, ha⟩ | ⟨h', he⟩ | ⟨h', hkept, hwritten, hb⟩)
  · obtain rfl := h.reads.eq h'
    rw [h.applied] at ha
    cases ha
  · obtain ⟨rfl, rfl⟩ := h.eq h'
    rw [hw] at he
    cases he
  · obtain ⟨rfl, rfl⟩ := h.eq h'
    obtain rfl := Except.ok.inj (hw.symm.trans hkept)
    obtain rfl := Except.ok.inj (hw'.symm.trans hwritten)
    exact hb

theorem checkAndFix_ends_iff :
    Ends (checkAndFix path c) ↔ ¬Blocked c.files path ∧ ¬Unfixable c.files path := by
  by_cases hb : Blocked c.files path
  · obtain ⟨f, hf⟩ := check_of_blocked hb
    exact iff_of_false (not_ends_of_error (bind_of_error hf)) fun h => h.1 hb
  have hnot : ¬Unfixable c.files path → (¬Blocked c.files path ∧ ¬Unfixable c.files path) :=
    .intro hb
  rcases check_of_not_blocked hb with ⟨line, hcheck⟩ | ⟨k, hreads, -⟩
  · refine iff_of_true ⟨⟨1, 0, 0⟩, c.printed [line], bind_of_ok hcheck⟩ (hnot ?_)
    have hnone : ∀ {k}, ¬Reads c.files path k := by
      intro k h
      rw [check_of_reads h] at hcheck
      cases hcheck
    rintro (h | h | h)
    · exact hnone h
    · exact hnone h.reads
    · exact hnone h.reads
  rcases hreads.fixing with hsame | ⟨hf, e, ha⟩ | ⟨fixed, h⟩
  · exact iff_of_true (checkAndFix_of_unchanged hreads hsame) (hnot (hreads.not_unfixable hsame))
  · exact iff_of_false (not_ends_of_error (checkAndFix_of_template hreads hf ha))
      fun h => h.2 (.template hreads hf ha)
  · cases hw : c.files.writeText (backupPath k.origin) k.source with
    | error e =>
      exact iff_of_false (not_ends_of_error (checkAndFix_of_backup h hw))
        fun h' => h'.2 (.backup h hw)
    | ok kept =>
      obtain ⟨written, hw'⟩ := hreads.writable hw fixed
      obtain ⟨c₁, rfl, hagain⟩ := checkAndFix_of_written h hw hw'
      rw [hagain, checkOnly_ends_iff, h.unfixable_iff hw hw']
      simp [hb]

/-! ### Several files -/

/-- Linting a file, with or without fixing, stops the run. -/
def Stops (fix : Bool) (fs : FileSystem) (path : Pathname) : Prop :=
  Blocked fs path ∨ fix = true ∧ Unfixable fs path

theorem file_ends_iff {fix : Bool} : Ends (file path fix c) ↔ ¬Stops fix c.files path := by
  cases fix with
  | false => simp [file, Stops, checkOnly_ends_iff]
  | true => simp [file, Stops, checkAndFix_ends_iff]

/-- Files were linted one after another, each on the console that the one before it left, with these
counts. -/
inductive Linted (fix : Bool) : Console → List Pathname → List Counts → Console → Prop where
  | nil {c : Console} : Linted fix c [] [] c
  | cons {c c₁ c' : Console} {p : Pathname} {ps : List Pathname} {n : Counts} {ns : List Counts}
      (h : file p fix c = .ok n c₁) (more : Linted fix c₁ ps ns c') :
      Linted fix c (p :: ps) (n :: ns) c'

def total (ns : List Counts) : Counts := ns.foldr Counts.add {}

theorem total_errors_eq_zero_iff {ns : List Counts} :
    (total ns).errors = 0 ↔ ∀ n ∈ ns, n.errors = 0 := by
  induction ns with
  | nil => simp [total]
  | cons n ns ih =>
    change n.errors + (total ns).errors = 0 ↔ _
    rw [Nat.add_eq_zero_iff, ih, List.forall_mem_cons]

variable {fix : Bool} {ps front back : List Pathname} {ns : List Counts} {n : Counts}

/-- A run over files that ends has linted every one of them, and its result is their total. -/
theorem files_eq_ok_iff :
    files fix ps c = .ok n c' ↔ ∃ ns, Linted fix c ps ns c' ∧ n = total ns := by
  induction ps generalizing c n with
  | nil =>
    constructor
    · intro h
      obtain ⟨rfl, rfl⟩ := EStateM.Result.ok.inj h
      exact ⟨[], .nil, rfl⟩
    · rintro ⟨ns, hl, rfl⟩
      cases hl
      rfl
  | cons p ps ih =>
    constructor
    · intro h
      cases hfile : file p fix c with
      | error e c₁ =>
        rw [files, bind_of_error hfile] at h
        cases h
      | ok a c₁ =>
        rw [files, bind_of_ok hfile] at h
        cases hmore : files fix ps c₁ with
        | error e c₂ =>
          rw [bind_of_error hmore] at h
          cases h
        | ok b c₂ =>
          rw [bind_of_ok hmore] at h
          obtain ⟨rfl, rfl⟩ := EStateM.Result.ok.inj h
          obtain ⟨ns, hl, rfl⟩ := ih.mp hmore
          exact ⟨a :: ns, .cons hfile hl, rfl⟩
    · rintro ⟨ns, hl, rfl⟩
      cases hl with
      | cons hfile hl =>
        rw [files, bind_of_ok hfile, bind_of_ok (ih.mpr ⟨_, hl, rfl⟩)]
        rfl

/-- The file after some that were linted is linted next. -/
theorem Linted.next {c₁ : Console} {ns₁ : List Counts} {p : Pathname}
    (h : Linted fix c (front ++ p :: back) ns c') (h₁ : Linted fix c front ns₁ c₁) :
    Ends (file p fix c₁) := by
  induction h₁ generalizing ns with
  | nil =>
    cases h with
    | cons hfile more => exact ⟨_, _, hfile⟩
  | cons hfile₁ _ ih =>
    cases h with
    | cons hfile more =>
      obtain ⟨-, rfl⟩ := EStateM.Result.ok.inj (hfile.symm.trans hfile₁)
      exact ih more

/-- All files are linted unless one of them stops the run, among the files as those before it left
them. -/
theorem exists_linted_iff : (∃ ns c', Linted fix c ps ns c') ↔
    ∀ front p back ns c₁, ps = front ++ p :: back → Linted fix c front ns c₁ →
      ¬Stops fix c₁.files p := by
  constructor
  · rintro ⟨ns, c', h⟩ front p back ns₁ c₁ rfl h₁
    exact file_ends_iff.mp (h.next h₁)
  · intro h
    induction ps generalizing c with
    | nil => exact ⟨[], c, .nil⟩
    | cons p ps ih =>
      obtain ⟨n, c₁, hfile⟩ := file_ends_iff.mpr (h [] p ps [] c rfl .nil)
      obtain ⟨ns, c', hl⟩ := ih fun front q back ns₁ c₂ heq hl =>
        h (p :: front) q back (n :: ns₁) c₂ (by rw [heq, List.cons_append]) (.cons hfile hl)
      exact ⟨n :: ns, c', .cons hfile hl⟩

/-- Without fixing no file is written. -/
theorem files_of_checkOnly (h : checkOnly path c = .ok n c') : c'.files = c.files := by
  rcases check_of_not_blocked (checkOnly_ends_iff.mp ⟨n, c', h⟩) with
    ⟨line, hcheck⟩ | ⟨k, -, hcheck⟩
  · rw [checkOnly, bind_of_ok hcheck] at h
    obtain ⟨-, rfl⟩ := EStateM.Result.ok.inj h
    rfl
  · rw [checkOnly, bind_of_ok hcheck] at h
    obtain ⟨-, rfl⟩ := EStateM.Result.ok.inj ((report_eq k c).symm.trans h)
    rfl

/-- Without fixing, all files are linted unless one of them is blocked. -/
theorem exists_linted_without_fixing :
    (∃ ns c', Linted false c ps ns c') ↔ ∀ p ∈ ps, ¬Blocked c.files p := by
  induction ps generalizing c with
  | nil => exact iff_of_true ⟨[], c, .nil⟩ (by simp)
  | cons p ps ih =>
    rw [List.forall_mem_cons]
    constructor
    · rintro ⟨ns, c', hl⟩
      cases hl with
      | cons hfile more =>
        have hps := ih.mp ⟨_, _, more⟩
        rw [files_of_checkOnly hfile] at hps
        exact ⟨checkOnly_ends_iff.mp ⟨_, _, hfile⟩, hps⟩
    · rintro ⟨hp, hps⟩
      obtain ⟨n, c₁, hfile⟩ := checkOnly_ends_iff.mpr hp
      rw [← files_of_checkOnly hfile] at hps
      obtain ⟨ns, c', hl⟩ := ih.mpr hps
      exact ⟨n :: ns, c', .cons hfile hl⟩

end Lint

namespace Command

open Lint

variable {args : List String} {a : Arguments} {c c' : Console} {status : Nat}

/-- The summary is lines on the console. -/
theorem lintSummary_eq (n : Counts) (fix : Bool) (paths : List Pathname) (c : Console) :
    ∃ lines, lintSummary n fix paths c = .ok () (c.printed lines) := by
  unfold lintSummary
  split
  · split
    · split
      · exact ⟨[_, _, _], rfl⟩
      · exact ⟨[_, _], rfl⟩
    · exact ⟨[_], rfl⟩
  · exact ⟨[], rfl⟩

/-- A run over files ends with the sum of what was counted, and prints it. -/
theorem lint_eq_ok_iff (h : read lintSpec args = .ok a) (hne : a.operands ≠ []) :
    lint args c = .ok status c' ↔ ∃ ns c₁,
      Linted (a.has "--fix") c (a.operands.map Pathname.ofString) ns c₁ ∧
      lintSummary (total ns) (a.has "--fix") (a.operands.map Pathname.ofString) c₁ = .ok () c' ∧
      status = if (total ns).errors ≠ 0 then 1 else 0 := by
  simp only [lint, h, if_neg hne]
  cases hfiles : files (a.has "--fix") (a.operands.map Pathname.ofString) c with
  | error e c₁ =>
    rw [bind_of_error hfiles]
    simp only [reduceCtorEq, false_iff]
    rintro ⟨ns, c₂, hl, -⟩
    rw [files_eq_ok_iff.mpr ⟨ns, hl, rfl⟩] at hfiles
    cases hfiles
  | ok n c₁ =>
    obtain ⟨lines, hsum⟩ := lintSummary_eq n (a.has "--fix") (a.operands.map Pathname.ofString) c₁
    rw [bind_of_ok hfiles, bind_of_ok hsum]
    simp only [pure, EStateM.pure, EStateM.Result.ok.injEq]
    constructor
    · rintro ⟨rfl, rfl⟩
      obtain ⟨ns, hl, rfl⟩ := files_eq_ok_iff.mp hfiles
      exact ⟨ns, c₁, hl, hsum, rfl⟩
    · rintro ⟨ns, c₂, hl, hsum', rfl⟩
      obtain ⟨rfl, rfl⟩ :=
        EStateM.Result.ok.inj (hfiles.symm.trans (files_eq_ok_iff.mpr ⟨ns, hl, rfl⟩))
      exact ⟨rfl, (EStateM.Result.ok.inj (hsum.symm.trans hsum')).2⟩

theorem lint_ends_of_linted (h : read lintSpec args = .ok a) (hne : a.operands ≠ []) :
    Ends (lint args c) ↔
      ∃ ns c₁, Linted (a.has "--fix") c (a.operands.map Pathname.ofString) ns c₁ := by
  constructor
  · rintro ⟨status, c', hend⟩
    obtain ⟨ns, c₁, hl, -⟩ := (lint_eq_ok_iff h hne).mp hend
    exact ⟨ns, c₁, hl⟩
  · rintro ⟨ns, c₁, hl⟩
    obtain ⟨lines, hsum⟩ :=
      lintSummary_eq (total ns) (a.has "--fix") (a.operands.map Pathname.ofString) c₁
    exact ⟨_, _, (lint_eq_ok_iff h hne).mpr ⟨ns, c₁, hl, hsum, rfl⟩⟩

/-- The linter ends exactly when no file stops it, among the files as the ones before it left them;
without fixing these are the files that were there. If it ends, every file has been linted in turn,
and the status tells whether an error was counted for one of them. -/
theorem lint_ends_iff (h : read lintSpec args = .ok a) (hne : a.operands ≠ []) (c : Console) :
    let fix := a.has "--fix"
    let paths := a.operands.map Pathname.ofString
    (Ends (lint args c) ↔ ∀ front p back ns c₁, paths = front ++ p :: back →
      Linted fix c front ns c₁ → ¬Stops fix c₁.files p) ∧
    (fix = false → (Ends (lint args c) ↔ ∀ p ∈ paths, ¬Blocked c.files p)) ∧
    ∀ status c', lint args c = .ok status c' → ∃ ns c₁, Linted fix c paths ns c₁ ∧
      ((status = 1 ∧ ∃ n ∈ ns, n.errors ≠ 0) ∨ (status = 0 ∧ ∀ n ∈ ns, n.errors = 0)) := by
  intro fix paths
  have hends : Ends (lint args c) ↔ ∀ front p back ns c₁, paths = front ++ p :: back →
      Linted fix c front ns c₁ → ¬Stops fix c₁.files p :=
    (lint_ends_of_linted h hne).trans exists_linted_iff
  refine ⟨hends, fun hfix => ?_, fun status c' hend => ?_⟩
  · rw [lint_ends_of_linted h hne, show a.has "--fix" = false from hfix]
    exact exists_linted_without_fixing
  · obtain ⟨ns, c₁, hl, -, hstatus⟩ := (lint_eq_ok_iff h hne).mp hend
    refine ⟨ns, c₁, hl, ?_⟩
    by_cases hzero : (total ns).errors = 0
    · exact .inr ⟨by rw [hstatus, if_neg (not_not.mpr hzero)], total_errors_eq_zero_iff.mp hzero⟩
    · refine .inl ⟨by rw [hstatus, if_pos hzero], ?_⟩
      by_contra hnone
      exact hzero (total_errors_eq_zero_iff.mpr fun n hn => by_contra fun hne => hnone ⟨n, hn, hne⟩)

/-- A file that is missing, and another one, by its absolute name, to fix: both are linted. -/
theorem lint_ends_sample :
    let view := Text.Utf8.encode "gtk::Window { }".toList
    let c : Console :=
      { files := { nodes := ⟨[(["b"], .directory), (["b", "view"], .file view)]⟩, cwd := ["a"] } }
    ∃ c' ns c₁, lint ["--fix", "none", "/b/view"] c = .ok 1 c' ∧
      Linted true c [Pathname.ofString "none", Pathname.ofString "/b/view"] ns c₁ ∧
        ∃ n ∈ ns, n.errors ≠ 0 := by
  intro view c
  have hread : (match read lintSpec ["--fix", "none", "/b/view"] with
      | .ok a => decide (a.operands = ["none", "/b/view"] ∧ a.has "--fix")
      | .error _ => false) = true := by decide +kernel
  have hrun : (match lint ["--fix", "none", "/b/view"] c with
      | .ok status _ => decide (status = 1)
      | .error _ _ => false) = true := by decide +kernel
  cases h : read lintSpec ["--fix", "none", "/b/view"] with
  | error e => simp [h] at hread
  | ok a =>
    rw [h] at hread
    obtain ⟨hoperands, hfix⟩ := of_decide_eq_true hread
    have hends := lint_ends_iff h (by simp [hoperands]) c
    rw [hoperands, hfix] at hends
    cases hlint : lint ["--fix", "none", "/b/view"] c with
    | error f c' => simp [hlint] at hrun
    | ok status c' =>
      rw [hlint] at hrun
      obtain rfl := of_decide_eq_true hrun
      obtain ⟨ns, c₁, hlinted, ⟨-, herror⟩ | ⟨hzero, -⟩⟩ := hends.2.2 _ _ hlint
      · exact ⟨c', ns, c₁, rfl, hlinted, herror⟩
      · cases hzero

/-- A file of one byte that no character is written with stops the linter: nothing is told of it,
and the file after it is not linted. -/
theorem undecodable_stops_lint :
    let good := Text.Utf8.encode "gtk::Window { }".toList
    let c : Console :=
      { files :=
          { nodes := ⟨[(["a", "bad"], .file [0xFF]), (["a", "good"], .file good)]⟩
            cwd := ["a"] } }
    ∃ f, lint ["/a/bad", "good"] c = .error (.file f) c := by
  intro good c
  have hread : (match read lintSpec ["/a/bad", "good"] with
      | .ok a => decide (a.operands = ["/a/bad", "good"] ∧ ¬a.has "--fix")
      | .error _ => false) = true := by decide +kernel
  cases h : read lintSpec ["/a/bad", "good"] with
  | error e => simp [h] at hread
  | ok a =>
    rw [h] at hread
    obtain ⟨hoperands, hfix⟩ := of_decide_eq_true hread
    have hbad : Blocked c.files (Pathname.ofString "/a/bad") :=
      .unreadable (e := .undecodable ⟨.startByte, 0xFF, 0, 1⟩) (by decide +kernel) (by simp)
    obtain ⟨f, hf⟩ := check_of_blocked hbad
    have hfile : Lint.files false [Pathname.ofString "/a/bad", Pathname.ofString "good"] c =
        .error (.file f) c :=
      bind_of_error (bind_of_error hf)
    refine ⟨f, ?_⟩
    simp only [lint, h, hoperands, List.map, eq_false_of_ne_true hfix]
    exact bind_of_error hfile

end Command

end WidgetView
