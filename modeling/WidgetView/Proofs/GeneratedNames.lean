import WidgetView.Proofs.Declarations
import WidgetView.Source

/-!
# Names over a session

Generated names over a session. A name is a label and a number, and two draws for one stem never
have the same number. Names of different stems are the same only if one label is the other with
digits after it and these digits are the first ones of the other number.
-/
namespace WidgetView

open Parse

namespace NameIndex

/-- No stem has fewer names in the second index. -/
def Extends (n n' : NameIndex) : Prop := ∀ stem, n.count stem ≤ n'.count stem

theorem Extends.refl (n : NameIndex) : Extends n n := fun _ => Nat.le_refl _

theorem Extends.trans {n₁ n₂ n₃ : NameIndex} (h : Extends n₁ n₂) (h' : Extends n₂ n₃) :
    Extends n₁ n₃ := fun stem => Nat.le_trans (h stem) (h' stem)

theorem extends_next (n : NameIndex) (p : WidgetPath) : Extends n (n.next p).2 := by
  intro stem
  by_cases h : stem = p.stem
  · have hnext := count_next_same n p
    rw [h]
    omega
  · exact Nat.le_of_eq (count_next_other n p stem h).symm

end NameIndex

namespace Parse

/-- The session that a step leaves behind, whether or not it fails. -/
def Step.after {α : Type} (x : Step α) (st : Session) : Session :=
  match x st with
  | .ok _ st' => st'
  | .error _ st' => st'

/-- Whatever comes of a step, names that were drawn stay drawn. -/
def Step.Keeps {α : Type} (x : Step α) : Prop :=
  ∀ st : Session, st.names.Extends (Step.after x st).names

namespace Step

variable {α β : Type}

theorem keeps_pure (a : α) : Keeps (pure a : Step α) := fun st => NameIndex.Extends.refl st.names

theorem keeps_throw (e : ParseError) : Keeps (throw e : Step α) :=
  fun st => NameIndex.Extends.refl st.names

theorem keeps_ofExcept (x : Except ParseError α) : Keeps (ofExcept x) := by
  cases x with
  | error e => exact keeps_throw e
  | ok a => exact keeps_pure a

theorem keeps_drawName (path : WidgetPath) : Keeps (drawName path) :=
  fun st => st.names.extends_next path

theorem keeps_noteParent (w : Widget) : Keeps (noteParent w) := by
  intro st
  have h : (after (noteParent w) st).names = st.names := noteParent_eq_ok rfl
  rw [h]
  exact .refl st.names

theorem Keeps.bind {x : Step α} {f : α → Step β} (hx : Keeps x) (hf : ∀ a, Keeps (f a)) :
    Keeps (x >>= f) := by
  intro st
  have h := hx st
  simp only [after, Bind.bind, EStateM.bind] at h ⊢
  cases he : x st with
  | error e st' => simpa [he] using h
  | ok a st' =>
    rw [he] at h
    exact h.trans (hf a st')

end Step

mutual

theorem keeps_declared (d : Declaration) : Step.Keeps (declared d) := by
  rw [declared]
  refine (Step.keeps_drawName d.path).bind fun name => ?_
  refine (Step.keeps_ofExcept d.shell).bind fun shell => ?_
  refine (keeps_entries d.path.sort shell.bodyStop d.body).bind fun found => ?_
  exact (Step.keeps_noteParent _).bind fun _ => Step.keeps_pure _
termination_by 2 * sizeOf d.body + 1

theorem keeps_entries (sort : WidgetSort) (stop : Nat × Nat) (ts : List Token) :
    Step.Keeps (entries sort stop ts) := by
  match ts with
  | [] =>
    rw [entries]
    exact Step.keeps_pure []
  | t :: ts =>
    cases hc : startsChild sort (t :: ts) with
    | true =>
      rw [entries_child hc]
      cases hd : declaration stop (t :: ts) with
      | error e => exact Step.keeps_throw e
      | ok d =>
        obtain ⟨hb, hr⟩ := declaration_skipComma_within hd
        refine (keeps_declared d).bind fun v => ?_
        exact (keeps_entries sort stop (skipComma d.rest)).bind fun _ => Step.keeps_pure _
    | false =>
      rw [entries_plain hc]
      cases hi : t.ident? with
      | none => exact Step.keeps_throw _
      | some name =>
        dsimp only
        cases hp : plainEntry stop sort name t.span.position ts with
        | error e => exact Step.keeps_throw e
        | ok r =>
          obtain ⟨entry, rest⟩ := r
          have hr := plainEntry_skipComma_within hp t
          exact (keeps_entries sort stop (skipComma rest)).bind fun _ => Step.keeps_pure _
termination_by 2 * sizeOf ts
decreasing_by all_goals omega

end

theorem keeps_root (ts : List Token) : Step.Keeps (root ts) := by
  unfold root
  cases declaration (endOf ts) ts with
  | error e => exact Step.keeps_throw e
  | ok d =>
    refine (keeps_declared d).bind fun v => ?_
    cases skipComma d.rest with
    | nil => exact Step.keeps_pure v
    | cons t r => exact Step.keeps_throw _

namespace Draw

def stem (r : Draw) : String := r.path.stem

end Draw

/-- Draws for one stem are numbered upwards, from above the numbers of an index. -/
def Numbered (n : NameIndex) (rs : List Draw) : Prop :=
  (∀ r ∈ rs, n.count r.stem < r.number) ∧
    rs.Pairwise fun a b => a.stem = b.stem → a.number < b.number

theorem Numbered.nil (n : NameIndex) : Numbered n [] := by simp [Numbered]

theorem Numbered.of_extends {n n' : NameIndex} {rs : List Draw} (h : n.Extends n')
    (hr : Numbered n' rs) : Numbered n rs :=
  ⟨fun r hm => Nat.lt_of_le_of_lt (h r.stem) (hr.1 r hm), hr.2⟩

theorem Numbered.sublist {n : NameIndex} {rs qs : List Draw} (h : Numbered n rs)
    (hs : qs.Sublist rs) : Numbered n qs :=
  ⟨fun r hm => h.1 r (hs.subset hm), h.2.sublist hs⟩

theorem Numbered.append {n n' : NameIndex} {rs qs : List Draw} (hn : n.Extends n')
    (hr : Numbered n rs) (hle : ∀ r ∈ rs, r.number ≤ n'.count r.stem) (hq : Numbered n' qs) :
    Numbered n (rs ++ qs) := by
  have hq' := hq.of_extends hn
  refine ⟨fun r hm => ?_, List.pairwise_append.mpr ⟨hr.2, hq.2, fun a ha b hb hs => ?_⟩⟩
  · rcases List.mem_append.mp hm with hm | hm
    · exact hr.1 r hm
    · exact hq'.1 r hm
  · have h₁ := hle a ha
    have h₂ := hq.1 b hb
    rw [hs] at h₁
    omega

theorem drawAll_extends (n : NameIndex) (ds : List Declaration) : n.Extends (drawAll n ds).2 := by
  induction ds generalizing n with
  | nil => exact .refl n
  | cons d ds ih => exact (n.extends_next d.path).trans (ih _)

/-- The draws of a run are numbered upwards and none is above what the index holds afterwards. -/
theorem drawAll_numbered (n : NameIndex) (ds : List Declaration) :
    Numbered n (drawAll n ds).1 ∧
      ∀ r ∈ (drawAll n ds).1, r.number ≤ (drawAll n ds).2.count r.stem := by
  induction ds generalizing n with
  | nil => exact ⟨.nil n, by simp [drawAll]⟩
  | cons d ds ih =>
    obtain ⟨hnum, hle⟩ := ih (n.next d.path).2
    have hfirst : n.count d.path.stem + 1 = (n.next d.path).2.count d.path.stem := by simp
    have hone : Numbered n [⟨d, n.count d.path.stem + 1⟩] := by
      simp [Numbered, Draw.stem, Draw.path]
    refine ⟨?_, fun r hm => ?_⟩
    · refine Numbered.append (n.extends_next d.path) hone ?_ hnum
      intro r hm
      obtain rfl := List.mem_singleton.mp hm
      exact Nat.le_of_eq hfirst
    · rcases List.mem_cons.mp hm with rfl | hm
      · have h := drawAll_extends (n.next d.path).2 ds d.path.stem
        rw [← hfirst] at h
        exact h
      · exact hle r hm

end Parse

/-- One view to be read: its tokens, and where the files are that it may name. -/
structure Reading where
  fs : FileSystem
  base : Pathname
  tokens : List Token

namespace Reading

/-- Read the view with an index of names, and keep the index. -/
def run (x : Reading) (n : NameIndex) : Except Failure View × NameIndex :=
  let r := Source.view x.fs x.base x.tokens { names := n }
  (r.1, r.2.names)

/-- The declarations of the view, those of the file if the tokens name one. -/
def declarations (x : Reading) : List Declaration :=
  match Source.follow x.fs x.base x.tokens with
  | .error _ => []
  | .ok ts => Parse.declarations ts

/-- The widgets of the view, if it can be read, each with its draw. -/
def widgets (x : Reading) (n : NameIndex) : List (Draw × Widget) :=
  match (x.run n).1 with
  | .error _ => []
  | .ok v => (drawAll n x.declarations).1.zip v.widgets

theorem run_extends (x : Reading) (n : NameIndex) : n.Extends (x.run n).2 := by
  have h : ∀ ts, n.Extends (Step.after (root ts) { names := n }).names :=
    fun ts => keeps_root ts { names := n }
  simp only [run, Source.view]
  cases Source.follow x.fs x.base x.tokens with
  | error e => exact .refl n
  | ok ts =>
    specialize h ts
    dsimp only [Step.after] at h ⊢
    cases hr : root ts { names := n } with
    | ok v st => simpa [hr] using h
    | error e st => simpa [hr] using h

theorem run_carries {x : Reading} {n : NameIndex} {v : View} (h : (x.run n).1 = .ok v) :
    Carries n (x.run n).2 x.declarations v.widgets := by
  simp only [run, Source.view, declarations] at h ⊢
  cases hf : Source.follow x.fs x.base x.tokens with
  | error e => simp [hf] at h
  | ok ts =>
    rw [hf] at h
    dsimp only at h ⊢
    cases hr : root ts { names := n } with
    | error e st => simp [hr] at h
    | ok v' st =>
      rw [hr] at h
      obtain rfl := Except.ok.inj h
      exact root_carries hr

/-- The draws of the view that can be read are numbered upwards, up to what the index then holds. -/
theorem widgets_numbered (x : Reading) (n : NameIndex) :
    Numbered n ((x.widgets n).map Prod.fst) ∧
      ∀ p ∈ x.widgets n, p.1.number ≤ (x.run n).2.count p.1.stem := by
  unfold widgets
  cases h : (x.run n).1 with
  | error e => exact ⟨.nil n, by simp⟩
  | ok v =>
    obtain ⟨hw, hn⟩ := run_carries h
    obtain ⟨hnum, hle⟩ := drawAll_numbered n x.declarations
    rw [hn]
    refine ⟨hnum.sublist ?_, fun p hp => hle p.1 (List.of_mem_zip hp).1⟩
    rw [List.map_fst_zip (Nat.le_of_eq hw.length_eq)]

theorem widgets_made {x : Reading} {n : NameIndex} {p : Draw × Widget} (hp : p ∈ x.widgets n) :
    p.1.Makes p.2 := by
  unfold widgets at hp
  cases h : (x.run n).1 with
  | error e => simp [h] at hp
  | ok v =>
    rw [h] at hp
    exact List.forall₂_zip (run_carries h).1 hp

end Reading

/-- The widgets of the views that are read one after another with one index, each with its draw. A
view that cannot be read gives none, but its names stay drawn. -/
def sessionWidgets (n : NameIndex) : List Reading → List (Draw × Widget)
  | [] => []
  | x :: xs => x.widgets n ++ sessionWidgets (x.run n).2 xs

theorem sessionWidgets_numbered (n : NameIndex) (xs : List Reading) :
    Numbered n ((sessionWidgets n xs).map Prod.fst) := by
  induction xs generalizing n with
  | nil => exact .nil n
  | cons x xs ih =>
    obtain ⟨hnum, hle⟩ := x.widgets_numbered n
    rw [sessionWidgets, List.map_append]
    refine Numbered.append (x.run_extends n) hnum ?_ (ih _)
    intro r hr
    obtain ⟨p, hp, rfl⟩ := List.mem_map.mp hr
    exact hle p hp

theorem sessionWidgets_made {n : NameIndex} {xs : List Reading} {p : Draw × Widget}
    (hp : p ∈ sessionWidgets n xs) : p.1.Makes p.2 := by
  induction xs generalizing n with
  | nil => simp [sessionWidgets] at hp
  | cons x xs ih =>
    rcases List.mem_append.mp hp with hp | hp
    · exact Reading.widgets_made hp
    · exact ih hp

/-- The widgets of a session on which no name is written. -/
def unnamedWidgets (n : NameIndex) (xs : List Reading) : List (Draw × Widget) :=
  (sessionWidgets n xs).filter fun p => (p.1.declaration.valueOf "name").isNone

namespace Parse.Draw

/-- The label of the second draw is that of the first with some digits after it, and the number of
the first begins with these digits and goes on with the number of the second. -/
def RunsInto (a b : Draw) : Prop :=
  ∃ digits, b.label.toList = a.label.toList ++ digits ∧
    (toString a.number).toList = digits ++ (toString b.number).toList

/-- Two draws for different stems that give the same name. -/
def Clash (a b : Draw) : Prop := a.stem ≠ b.stem ∧ (a.RunsInto b ∨ b.RunsInto a)

theorem isDigit_of_mem_toString {c : Char} {n : Nat} (h : c ∈ (toString n).toList) :
    c.isDigit = true := by
  rw [Nat.toString_eq_ofList_toDigits, String.toList_ofList] at h
  exact Nat.isDigit_of_mem_toDigits (by omega) (by omega) h

theorem toString_toList_injective {m n : Nat}
    (h : (toString m).toList = (toString n).toList) : m = n := by
  simp only [Nat.toString_eq_ofList_toDigits, String.toList_ofList] at h
  have hm := Nat.ofDigitChars_ten_toDigits (n := m)
  have hn := Nat.ofDigitChars_ten_toDigits (n := n)
  rw [← hm, ← hn, h]

/-- A name is a label and a number, so two names are the same only where one label ends earlier. -/
theorem generated_eq_iff (a b : Draw) :
    a.generated = b.generated ↔ a.RunsInto b ∨ b.RunsInto a := by
  rw [generated, generated, ← String.toList_inj, String.toList_append, String.toList_append,
    List.append_eq_append_iff]
  constructor
  · rintro (⟨t, hl, hn⟩ | ⟨t, hl, hn⟩)
    · exact Or.inl ⟨t, hl, hn⟩
    · exact Or.inr ⟨t, hl, hn⟩
  · rintro (⟨t, hl, hn⟩ | ⟨t, hl, hn⟩)
    · exact Or.inl ⟨t, hl, hn⟩
    · exact Or.inr ⟨t, hl, hn⟩

/-- How many low lines a label has more than its stem. -/
theorem count_label (r : Draw) :
    r.label.toList.count '_' =
      r.stem.toList.count '_' + if r.path.sort = .composed then 1 else 0 := by
  unfold label stem
  cases r.path.sort with
  | toolkit => simp
  | composed => simp [String.toList_append, Nat.add_comm]

/-- Draws for one stem run into each other only with the same number: a label with a low line before
it is not a label with digits after it. -/
theorem RunsInto.number_eq {a b : Draw} (hs : a.stem = b.stem) (h : a.RunsInto b) :
    a.number = b.number := by
  obtain ⟨t, hl, hn⟩ := h
  have hdigit : ∀ c ∈ t, c.isDigit = true := by
    intro c hc
    have hm : c ∈ (toString a.number).toList := by rw [hn]; exact List.mem_append_left _ hc
    exact isDigit_of_mem_toString hm
  have hline : t.count '_' = 0 := by
    rw [List.count_eq_zero]
    intro hm
    exact absurd (hdigit '_' hm) (by decide)
  -- digits hold no low line, so both labels have as many
  have hcount := congrArg (List.count '_') hl
  rw [List.count_append, hline, count_label, count_label, hs] at hcount
  have hlabel : a.label = b.label := by
    unfold label
    rw [show a.path.stem = b.path.stem from hs]
    cases ha : a.path.sort <;> cases hb : b.path.sort <;> simp [ha, hb] at hcount ⊢
  rw [hlabel] at hl
  have ht : t = [] := by simpa using hl
  rw [ht] at hn
  exact toString_toList_injective hn

/-- Draws for one stem with different numbers have different names. -/
theorem generated_ne_of_stem_eq {a b : Draw} (hs : a.stem = b.stem) (hn : a.number < b.number) :
    a.generated ≠ b.generated := by
  intro h
  rcases (generated_eq_iff a b).mp h with h | h
  · have he := RunsInto.number_eq hs h
    omega
  · have he := RunsInto.number_eq hs.symm h
    omega

end Parse.Draw

theorem unnamedWidgets_name {n : NameIndex} {xs : List Reading} {p : Draw × Widget}
    (hp : p ∈ unnamedWidgets n xs) : p.2.name = p.1.generated := by
  obtain ⟨hm, hv⟩ := List.mem_filter.mp hp
  rw [(sessionWidgets_made hm).name_eq, Option.isNone_iff_eq_none.mp hv]
  rfl

theorem unnamedWidgets_numbered (n : NameIndex) (xs : List Reading) :
    (unnamedWidgets n xs).Pairwise fun p q => p.1.stem = q.1.stem → p.1.number < q.1.number := by
  have h := (sessionWidgets_numbered n xs).2
  rw [List.pairwise_map] at h
  exact h.sublist List.filter_sublist

/-- Of two widgets on which no name is written, the names are the same exactly if their draws
clash. -/
theorem unnamedWidgets_name_eq_iff (n : NameIndex) (xs : List Reading) :
    (unnamedWidgets n xs).Pairwise fun p q => p.2.name = q.2.name ↔ p.1.Clash q.1 := by
  refine (unnamedWidgets_numbered n xs).imp_of_mem fun {p q} hp hq hnum => ?_
  rw [unnamedWidgets_name hp, unnamedWidgets_name hq]
  constructor
  · intro h
    refine ⟨fun hs => ?_, (Draw.generated_eq_iff p.1 q.1).mp h⟩
    exact Draw.generated_ne_of_stem_eq hs (hnum hs) h
  · intro h
    exact (Draw.generated_eq_iff p.1 q.1).mpr h.2

/-- The generated names of a session are unique exactly if no two of its draws clash. -/
theorem generated_names_nodup_iff (n : NameIndex) (xs : List Reading) :
    ((unnamedWidgets n xs).map fun p => p.2.name).Nodup ↔
      (unnamedWidgets n xs).Pairwise fun p q => ¬ p.1.Clash q.1 := by
  have h := unnamedWidgets_name_eq_iff n xs
  rw [List.Nodup, List.pairwise_map]
  constructor
  · intro hd
    exact hd.imp₂ (fun p q hne hiff hc => hne (hiff.mpr hc)) h
  · intro hd
    exact hd.imp₂ (fun p q hne hiff he => hne (hiff.mp he)) h

/-- A composed widget gets the name of a toolkit widget whose type starts with a low line. -/
theorem low_line_names_clash :
    let ts := (tokenize "gtk::Box { gtk::_counter { }, Counter { } }".toList).toOption.getD []
    ¬ ((unnamedWidgets {} [⟨{}, {}, ts⟩]).map fun p => p.2.name).Nodup := by
  decide +kernel

end WidgetView
