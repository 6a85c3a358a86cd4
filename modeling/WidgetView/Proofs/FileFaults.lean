import WidgetView.Proofs.Encoding
import WidgetView.Source

/-!
# Faults of files

What comes of a source besides a view. Faults of the text are lexical errors, faults of the grammar
and refusals of the system are parse errors. A file that is found but holds no text, and a name that
no file can have, are neither: the main statement says that nothing else passes through as it is.
-/
namespace WidgetView

namespace FileSystem

/-- The name cannot be looked up at all, or its file is not the encoding of any text. -/
def Garbled (fs : FileSystem) (p : Pathname) : Prop :=
  '\x00' ∈ p.toString.toList ∨
    ∃ bytes, fs.readBytes p = .ok bytes ∧ ∀ cs, bytes ≠ Text.Utf8.encode cs

theorem isRefusal_of_walk {fs : FileSystem} {path : String} {place parts : List String}
    {e : FileFault} (h : fs.walk path place parts = .error e) : e.isRefusal = true := by
  induction parts generalizing place with
  | nil => simp [walk] at h
  | cons part parts ih =>
    rw [walk] at h
    split at h
    · obtain rfl := Except.error.inj h
      rfl
    · obtain rfl := Except.error.inj h
      rfl
    · split at h
      · obtain rfl := Except.error.inj h
        rfl
      · exact ih h

/-- Bytes are refused by the system, unless the name holds a null character. -/
theorem isRefusal_of_readBytes {fs : FileSystem} {p : Pathname} {e : FileFault}
    (h : fs.readBytes p = .error e) :
    e.isRefusal = false ↔ '\x00' ∈ p.toString.toList := by
  unfold readBytes at h
  split at h
  · next e' hlocate =>
    obtain rfl := Except.error.inj h
    simp only [locate] at hlocate
    by_cases hnull : '\x00' ∈ p.toString.toList
    · rw [if_pos hnull] at hlocate
      obtain rfl := Except.error.inj hlocate
      simp [FileFault.isRefusal, hnull]
    · rw [if_neg hnull] at hlocate
      split at hlocate
      · obtain rfl := Except.error.inj hlocate
        simp [FileFault.isRefusal, hnull]
      · simp [isRefusal_of_walk hlocate, hnull]
  · next place hlocate =>
    have hnull : '\x00' ∉ p.toString.toList := by
      intro hnull
      simp [locate, hnull] at hlocate
    split at h
    · cases h
    · obtain rfl := Except.error.inj h
      simp [FileFault.isRefusal, hnull]
    · obtain rfl := Except.error.inj h
      simp [FileFault.isRefusal, hnull]

theorem readBytes_of_null {fs : FileSystem} {p : Pathname} (h : '\x00' ∈ p.toString.toList) :
    fs.readBytes p = .error .nullCharacter := by
  simp [readBytes, locate, h]

/-- Reading fails, but not by a refusal, for the garbled files. -/
theorem readText_fault_iff {fs : FileSystem} {p : Pathname} :
    (∃ e, fs.readText p = .error e ∧ e.isRefusal = false) ↔ fs.Garbled p := by
  unfold readText Garbled
  cases hbytes : fs.readBytes p with
  | error e =>
    simp only [Except.error.injEq, reduceCtorEq, false_and, exists_false, or_false]
    rw [← isRefusal_of_readBytes hbytes]
    simp
  | ok bytes =>
    have hnull : '\x00' ∉ p.toString.toList := by
      intro hnull
      simp [readBytes_of_null hnull] at hbytes
    dsimp only
    cases hdecode : Text.Utf8.decode bytes with
    | error g =>
      have hnone : ∀ cs, bytes ≠ Text.Utf8.encode cs := by
        intro cs hcs
        rw [Text.Utf8.decode_eq_ok_iff.mpr hcs] at hdecode
        cases hdecode
      exact iff_of_true ⟨_, rfl, rfl⟩ (Or.inr ⟨bytes, rfl, hnone⟩)
    | ok cs =>
      have hsome : bytes = Text.Utf8.encode cs := Text.Utf8.decode_eq_ok_iff.mp hdecode
      refine iff_of_false (by simp) ?_
      rintro (h | ⟨_, hbytes', hnone⟩)
      · exact hnull h
      · exact hnone cs (Except.ok.inj hbytes' ▸ hsome)

end FileSystem

namespace Source

variable {fs : FileSystem} {base path : Pathname} {ts : List Token} {st : Session}

theorem macroTokens_fault_iff :
    (∃ f, macroTokens fs path = .error (.file f)) ↔ fs.Garbled path := by
  rw [← FileSystem.readText_fault_iff, macroTokens]
  cases fs.readText path with
  | error e => cases h : e.isRefusal <;> simp [h]
  | ok text =>
    simp only [reduceCtorEq, false_and, exists_false, iff_false, not_exists]
    intro f
    split
    · simp
    · split <;> simp

theorem macroTokens_ne_lexical (e : LexError) : macroTokens fs path ≠ .error (.lexical e) := by
  unfold macroTokens
  split
  · split <;> simp
  · split
    · simp
    · split <;> simp

/-- A fault in the file that a lone string names is passed on. -/
theorem follow_string_fault_iff {t : Token} {s : String} {f : FileFault} (h : t.string? = some s) :
    follow fs base [t] = .error (.file f) ↔
      macroTokens fs (base.join (Pathname.ofString s)) = .error (.file f) := by
  simp only [follow, fileName?, List.head?_cons, Option.bind_some, h, Option.map_some,
    List.tail_cons]
  cases macroTokens fs (base.join (Pathname.ofString s)) with
  | ok ts => simp
  | error e => cases e <;> simp

theorem follow_fault_iff : (∃ f, follow fs base ts = .error (.file f)) ↔
    ∃ t s, ts = [t] ∧ t.string? = some s ∧ fs.Garbled (base.join (Pathname.ofString s)) := by
  constructor
  · rintro ⟨f, hf⟩
    cases hname : fileName? ts with
    | none => simp [follow, hname] at hf
    | some p =>
      obtain ⟨t, s⟩ := p
      obtain ⟨u, hhead, hmap⟩ := Option.bind_eq_some_iff.mp hname
      obtain ⟨s', hs, heq⟩ := Option.map_eq_some_iff.mp hmap
      cases heq
      match ts, hhead with
      | [_], rfl =>
        exact ⟨t, s, rfl, hs, macroTokens_fault_iff.mp ⟨f, (follow_string_fault_iff hs).mp hf⟩⟩
      | _ :: v :: vs, rfl => simp [follow, hname] at hf
  · rintro ⟨t, s, rfl, ht, hgarbled⟩
    obtain ⟨f, hf⟩ := macroTokens_fault_iff.mpr hgarbled
    exact ⟨f, (follow_string_fault_iff ht).mpr hf⟩

theorem follow_ne_lexical (e : LexError) : follow fs base ts ≠ .error (.lexical e) := by
  unfold follow
  split
  · simp
  · split
    · simp
    · dsimp only
      split
      · simp
      · exact macroTokens_ne_lexical e

/-- What the grammar says of the tokens is no fault of a file, and no lexical error. -/
theorem view_of_follow_ok {us : List Token} {e : Failure} (hfollow : follow fs base ts = .ok us)
    (h : (view fs base ts st).1 = .error e) : ∃ e', e = .parse e' := by
  simp only [view, hfollow] at h
  split at h
  · cases h
  · exact ⟨_, (Except.error.inj h).symm⟩

theorem view_of_follow_error {e : Failure} (hfollow : follow fs base ts = .error e) :
    (view fs base ts st).1 = .error e := by
  simp only [view, hfollow]

theorem view_fault_iff : (∃ f, (view fs base ts st).1 = .error (.file f)) ↔
    ∃ t s, ts = [t] ∧ t.string? = some s ∧ fs.Garbled (base.join (Pathname.ofString s)) := by
  rw [← follow_fault_iff]
  cases hfollow : follow fs base ts with
  | error e => simp [view_of_follow_error hfollow]
  | ok us =>
    refine iff_of_false ?_ (by simp)
    rintro ⟨f, hf⟩
    obtain ⟨e', he'⟩ := view_of_follow_ok hfollow hf
    cases he'

theorem view_ne_lexical (e : LexError) : (view fs base ts st).1 ≠ .error (.lexical e) := by
  intro h
  cases hfollow : follow fs base ts with
  | error e' =>
    rw [view_of_follow_error hfollow] at h
    obtain rfl := Except.error.inj h
    exact follow_ne_lexical e hfollow
  | ok us =>
    obtain ⟨e', he'⟩ := view_of_follow_ok hfollow h
    cases he'

theorem viewOfMacroFile_ne_lexical (e : LexError) :
    (viewOfMacroFile fs path st).1 ≠ .error (.lexical e) := by
  unfold viewOfMacroFile
  split
  · next e' htokens =>
    intro h
    obtain rfl := Except.error.inj h
    exact macroTokens_ne_lexical e htokens
  · exact view_ne_lexical e

/-- A view, or an error that tells what is wrong with a text. -/
def Answered (r : Except Failure View) : Prop :=
  (∃ v, r = .ok v) ∨ (∃ e, r = .error (.lexical e)) ∨ ∃ e, r = .error (.parse e)

theorem answered_iff {r : Except Failure View} : Answered r ↔ ¬∃ f, r = .error (.file f) := by
  rcases r with (_ | _ | _) | _ <;> simp [Answered]

instance (r : Except Failure View) : Decidable (Answered r) :=
  match r with
  | .ok v => isTrue (.inl ⟨v, rfl⟩)
  | .error (.lexical e) => isTrue (.inr (.inl ⟨e, rfl⟩))
  | .error (.parse e) => isTrue (.inr (.inr ⟨e, rfl⟩))
  | .error (.file f) => isFalse fun h => answered_iff.mp h ⟨f, rfl⟩

/-- A source is answered unless it names a garbled file, and a file unless it is garbled itself or
names a garbled one in its macro call. Lexical errors are only ever told of the source text. -/
theorem answered_iff_not_garbled (fs : FileSystem) (base path : Pathname) (text : List Char)
    (st : Session) :
    (Answered (viewOfText fs base text st).1 ↔
      ¬∃ t s, tokenize text = .ok [t] ∧ t.string? = some s ∧
        fs.Garbled (base.join (Pathname.ofString s))) ∧
    (Answered (viewOfMacroFile fs path st).1 ↔
      ¬fs.Garbled path ∧
        ¬∃ t s, macroTokens fs path = .ok [t] ∧ t.string? = some s ∧
          fs.Garbled (path.parent.join (Pathname.ofString s))) ∧
    ∀ e, (viewOfMacroFile fs path st).1 ≠ .error (.lexical e) := by
  refine ⟨?_, ?_, viewOfMacroFile_ne_lexical⟩
  · rw [answered_iff, viewOfText]
    cases tokenize text with
    | error e => simp
    | ok ts => simp only [Except.ok.injEq, view_fault_iff]
  · rw [answered_iff, viewOfMacroFile, ← macroTokens_fault_iff]
    cases macroTokens fs path with
    | error e => simp
    | ok ts =>
      simp only [Except.ok.injEq, view_fault_iff]
      simp

/-- A file of one byte that no character is written with, reached by a source, as a file, and
through another file, by relative and by absolute names; and a name with a null character. -/
theorem garbled_files_escape :
    (let fs : FileSystem := {
      nodes :=
        ⟨[(["w", "a"], .file [0xFF]), (["b"], .file (Text.Utf8.encode "m!(\"w/a\")".toList))]⟩
      cwd := ["w"] }
    ¬Answered (viewOfText fs {} "\"a\"".toList {}).1 ∧
      ¬Answered (viewOfText fs fs.workingDirectory "\"/w/a\"".toList {}).1 ∧
      ¬Answered (viewOfMacroFile fs (Pathname.ofString "/w/a") {}).1 ∧
      ¬Answered (viewOfMacroFile fs (Pathname.ofString "../b") {}).1) ∧
    ¬Answered (viewOfText {} {} "\"a\\0\"".toList {}).1 := by
  decide +kernel

end Source

end WidgetView
