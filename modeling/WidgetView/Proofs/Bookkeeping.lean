import WidgetView.Fuzz.Run
import WidgetView.Proofs.Mutations

/-!
# The books of the fuzzer

A finding is kept once and is behind one of the counted troubles, and the corpus keeps its seeds in
front and its size within its limit. An input that is checked is counted once; only if the scanner
rejects it and the time is over between its being counted and the lifting of the limit, it is
counted as rejected and as out of time. One iteration keeps the books, so a run of any length does.
-/
namespace WidgetView.Fuzz

variable {α : Type}

/-! ### The counts of a check -/

namespace Counts

/-- The inputs that were judged, by the counts. -/
def judged (c : Counts) : Nat := c.accepted + c.rejected + c.crashes + c.timeouts + c.mismatches

/-- The inputs that were found wanting. -/
def troubles (c : Counts) : Nat := c.crashes + c.timeouts + c.mismatches

/-- Between two counts no iteration was begun, nothing was found, and so many inputs were
counted. -/
structure Grown (n : Nat) (c c' : Counts) : Prop where
  iterations : c'.iterations = c.iterations
  troubles : c'.troubles = c.troubles
  timeouts : c'.timeouts = c.timeouts
  judged : c'.judged = c.judged + n

variable {n : Nat} {c c' : Counts}

theorem grown_zero (c : Counts) : Grown 0 c c := ⟨rfl, rfl, rfl, rfl⟩

theorem Grown.disagree (h : Grown n c c') (d : Bool) : Grown n c (c'.disagree d) := by
  cases d with
  | false => exact h
  | true => exact ⟨h.iterations, h.troubles, h.timeouts, h.judged⟩

theorem Grown.accept (h : Grown n c c') : Grown (n + 1) c c'.accept := by
  obtain ⟨hi, htr, hti, hj⟩ := h
  refine ⟨hi, htr, hti, ?_⟩
  simp only [Counts.judged, Counts.accept] at hj ⊢
  omega

theorem Grown.reject (h : Grown n c c') : Grown (n + 1) c c'.reject := by
  obtain ⟨hi, htr, hti, hj⟩ := h
  refine ⟨hi, htr, hti, ?_⟩
  simp only [Counts.judged, Counts.reject] at hj ⊢
  omega

theorem judged_find (c : Counts) (cause : Cause) : (c.find cause).judged = c.judged + 1 := by
  cases cause <;> simp only [judged, find] <;> omega

theorem troubles_find (c : Counts) (cause : Cause) : (c.find cause).troubles = c.troubles + 1 := by
  cases cause <;> simp only [troubles, find] <;> omega

theorem timeouts_le_find (c : Counts) (cause : Cause) : c.timeouts ≤ (c.find cause).timeouts := by
  cases cause <;> simp [find]

end Counts

/-- How many inputs the counts of a check have more, by whether the input is left to be counted. One
that is not was rejected by the scanner. -/
def Worked (input : List Char) (c : Counts) : Bool → Counts → Prop
  | true, c' => c.Grown 0 c'
  | false, c' => c.Grown 1 c' ∧ ∃ e, tokenize input = .error e

/-- A check broke off before its input was counted, or, when it had been, because its time was
over. -/
def BrokeOff (late : Option Stage) (input : List Char) (c : Counts) (b : Break) (c' : Counts) :
    Prop :=
  c.Grown 0 c' ∨
    b = .found .timeout ∧ late = some .leaving ∧ (∃ e, tokenize input = .error e) ∧ c.Grown 1 c'

variable {late : Option Stage} {input : List Char}

theorem checkTime_meets (late : Option Stage) (stage : Stage) (P : Counts → Prop) :
    Meets P (checkTime late stage) (fun _ => P)
      (fun b c => b = .found .timeout ∧ late = some stage ∧ P c) := by
  unfold checkTime
  split
  · next h => exact Meets.raise fun c hc => ⟨rfl, h, hc⟩
  · exact Meets.ret fun _ hc => hc

theorem agreedTokens_meets (ts us : Option (List Token)) (P : Counts → Prop) :
    Meets P (agreedTokens ts us) (fun read c => read = ts ∧ P c) (fun _ => P) := by
  unfold agreedTokens
  split
  · split
    · exact Meets.ret fun _ h => ⟨rfl, h⟩
    · exact Meets.raise fun _ h => h
  · exact Meets.ret fun _ h => ⟨rfl, h⟩

/-- The tokenizers leave the input uncounted, and the check goes on with what the scanner says. -/
theorem compareTokenizers_meets (s : Setup) (late : Option Stage) (input : List Char) (c : Counts) :
    Meets (c.Grown 0) (compareTokenizers s late input)
      (fun ts c' => ts = (tokenize input).toOption ∧ c.Grown 0 c') (fun _ => c.Grown 0) := by
  have htime : ∀ stage,
      Meets (c.Grown 0) (checkTime late stage) (fun _ => c.Grown 0) (fun _ => c.Grown 0) :=
    fun stage => (checkTime_meets late stage _).mono (fun _ h => h) (fun _ _ h => h)
      fun _ _ h => h.2.2
  refine (htime .reading).bind fun _ => ?_
  refine (Meets.change (Q := c.Grown 0) fun _ h => h.disagree _).bind fun _ => ?_
  exact (htime .judging).bind fun _ => agreedTokens_meets _ _ _

theorem parseTokens_meets (files : FileSystem) (ts : List Token) (P : Counts → Prop) :
    Meets P (parseTokens files ts) (fun _ => P) (fun _ => P) := by
  unfold parseTokens
  split
  · exact Meets.ret fun _ h => h
  · exact Meets.raise fun _ h => h
  · exact Meets.raise fun _ h => h

theorem work_meets (s : Setup) (late : Option Stage) (input : List Char) (c : Counts) :
    Meets (c.Grown 0) (work s late input) (Worked input c) (fun _ => c.Grown 0) := by
  refine (compareTokenizers_meets s late input c).bind fun read => ?_
  cases read with
  | none =>
    refine (Meets.change (Q := Worked input c false) fun c' h => ?_).bind
      fun _ => Meets.ret fun _ h => h
    obtain ⟨hread, hc'⟩ := h
    cases htokens : tokenize input with
    | error e => exact ⟨hc'.reject, e, htokens⟩
    | ok ts => simp [htokens, Except.toOption] at hread
  | some ts =>
    have hparse : Meets (c.Grown 0) (do parseTokens s.files ts; return true : Timed Bool)
        (Worked input c) (fun _ => c.Grown 0) :=
      (parseTokens_meets s.files ts _).bind fun _ => Meets.ret fun _ h => h
    exact hparse.mono (fun _ h => h.2) (fun _ _ h => h) fun _ _ h => h

/-- Only a rejected input is counted when the time is over after the work. -/
theorem timed_meets (s : Setup) (late : Option Stage) (input : List Char) (c : Counts) :
    Meets (c.Grown 0) (timed s late input) (Worked input c) (BrokeOff late input c) := by
  refine (work_meets s late input c).ensure (fun left => ?_) fun b => ?_
  · refine (checkTime_meets late .leaving _).mono (fun _ h => h) (fun _ _ h => h) ?_
    rintro b c' ⟨rfl, hlate, hworked⟩
    cases left with
    | true => exact .inl hworked
    | false => exact .inr ⟨rfl, hlate, hworked.2, hworked.1⟩
  · refine (checkTime_meets late .leaving _).mono (fun _ h => h) (fun _ _ h => .inl h) ?_
    rintro b' c' ⟨-, -, h⟩
    exact .inl h

/-- An input that the scanner rejects, and whose time may be over when it has been counted. -/
def CountedTwice (s : Setup) (input : List Char) : Prop :=
  (∃ e, tokenize input = .error e) ∧ ∃ before, s.late before input = some .leaving

/-- A check counts its input and nothing else, or it files a finding, whose input may have been
counted. -/
theorem check_cases (s : Setup) (l : Log) (input : List Char) :
    (∃ counts, l.counts.Grown 1 counts ∧ check s l input = (false, { l with counts := counts })) ∨
      ∃ cause counts,
        (l.counts.Grown 0 counts ∨
          cause = .timeout ∧ CountedTwice s input ∧ l.counts.Grown 1 counts) ∧
          check s l input = (true, { l with counts := counts }.find s.digest ⟨cause, input⟩) := by
  have htimed := timed_meets s (s.late l.counts input) input l.counts _ l.counts.grown_zero
  unfold check
  cases hrun : timed s (s.late l.counts input) input l.counts with
  | ok left counts =>
    rw [hrun] at htimed
    cases left with
    | true => exact .inl ⟨_, htimed.accept, rfl⟩
    | false => exact .inl ⟨_, htimed.1, rfl⟩
  | error b counts =>
    rw [hrun] at htimed
    cases b with
    | rejected =>
      rcases htimed with h | ⟨hb, -⟩
      · exact .inl ⟨_, h.reject, rfl⟩
      · cases hb
    | found cause =>
      refine .inr ⟨cause, counts, ?_, rfl⟩
      rcases htimed with h | ⟨hb, hlate, hrejected, h⟩
      · exact .inl h
      · cases hb
        exact .inr ⟨rfl, ⟨hrejected, _, hlate⟩, h⟩

/-! ### The log -/

/-- The counts add up to the inputs that were judged and those that were counted twice. -/
def Tallied (s : Setup) (n : Nat) (c : Counts) : Prop :=
  ∃ twice : List (List Char), c.judged = n + twice.length ∧ twice.length ≤ c.timeouts ∧
    ∀ input ∈ twice, CountedTwice s input

/-- The findings of a log are told apart, and there are not more of them than troubles. -/
structure Filed (digest : List Char → String) (l : Log) : Prop where
  distinct : (l.findings.map (Finding.key digest)).Nodup
  caused : l.findings.length ≤ l.counts.troubles

section Log

variable {s : Setup} {digest : List Char → String} {l : Log} {n : Nat}

theorem Log.contains_iff {f : Finding} :
    l.contains digest f = true ↔ f.key digest ∈ l.findings.map (Finding.key digest) := by
  rw [contains, List.any_eq_true, List.mem_map]
  simp only [decide_eq_true_eq]

theorem Log.counts_find (l : Log) (f : Finding) :
    (l.find digest f).counts = l.counts.find f.cause := by
  unfold find keep
  split <;> rfl

/-- A finding is kept together with a trouble that is counted for it. -/
theorem Filed.find (h : Filed digest l) (f : Finding) : Filed digest (l.find digest f) := by
  have hroom : l.findings.length < (l.counts.find f.cause).troubles := by
    rw [Counts.troubles_find]
    exact Nat.lt_succ_of_le h.caused
  unfold Log.find Log.keep
  split
  · exact ⟨h.distinct, hroom.le⟩
  · next hnew =>
    rw [Log.contains_iff] at hnew
    refine ⟨?_, ?_⟩
    · rw [List.map_append, List.map_singleton]
      exact List.concat_eq_append ▸ h.distinct.concat hnew
    · rw [List.length_append]
      exact hroom

theorem Filed.check (h : Filed s.digest l) (input : List Char) :
    Filed s.digest (check s l input).2 := by
  have hcounts : ∀ {n counts}, l.counts.Grown n counts →
      Filed s.digest { l with counts := counts } :=
    fun hgrown => ⟨h.distinct, h.caused.trans hgrown.troubles.ge⟩
  rcases check_cases s l input with ⟨counts, hgrown, hcheck⟩ | ⟨cause, counts, hgrown, hcheck⟩
  · rw [hcheck]
    exact hcounts hgrown
  · rw [hcheck]
    rcases hgrown with hgrown | ⟨-, -, hgrown⟩
    · exact (hcounts hgrown).find _
    · exact (hcounts hgrown).find _

/-- One more input is judged. -/
theorem Tallied.check (h : Tallied s n l.counts) (input : List Char) :
    Tallied s (n + 1) (check s l input).2.counts := by
  obtain ⟨twice, hsum, htimeouts, htwice⟩ := h
  rcases check_cases s l input with ⟨counts, hgrown, hcheck⟩ | ⟨cause, counts, hgrown, hcheck⟩
  · rw [hcheck]
    refine ⟨twice, ?_, htimeouts.trans hgrown.timeouts.ge, htwice⟩
    rw [hgrown.judged, hsum]
    omega
  · rw [hcheck, Log.counts_find]
    rcases hgrown with hgrown | ⟨rfl, hinput, hgrown⟩
    · refine ⟨twice, ?_, htimeouts.trans (hgrown.timeouts.ge.trans (counts.timeouts_le_find cause)),
        htwice⟩
      rw [Counts.judged_find, hgrown.judged, hsum]
      omega
    · refine ⟨input :: twice, ?_, ?_, List.forall_mem_cons.mpr ⟨hinput, htwice⟩⟩
      · rw [Counts.judged_find, hgrown.judged, hsum, List.length_cons]
        omega
      · change twice.length + 1 ≤ counts.timeouts + 1
        exact Nat.succ_le_succ (htimeouts.trans hgrown.timeouts.ge)

end Log

/-! ### The corpus -/

/-- A corpus begins with the seeds and is not too large. -/
structure Seeded (corpus : List (List Char)) : Prop where
  front : seeds.map String.toList <+: corpus
  bounded : corpus.length ≤ maxCorpus

theorem Seeded.ne_nil {corpus : List (List Char)} (h : Seeded corpus) : corpus ≠ [] := by
  rintro rfl
  exact absurd h.front (by decide)

/-- What joins a corpus goes behind the seeds, and what leaves it stood behind them. -/
theorem Seeded.addInput {corpus : List (List Char)} (h : Seeded corpus) (input : List Char) :
    Yields (addInput corpus input) Seeded := by
  obtain ⟨⟨rest, rfl⟩, hbounded⟩ := h
  unfold Fuzz.addInput
  rw [List.length_append] at hbounded
  have hseeds : (seeds.map String.toList).length = seeds.length := List.length_map _
  have hsmall : seeds.length < maxCorpus := by decide
  simp only [List.append_assoc, List.length_append, List.length_singleton]
  split
  · next hlarge =>
    refine (betweenNat_yields (by omega)).bind fun i hi => .ret ?_
    rw [List.eraseIdx_append_of_length_le (by omega)]
    refine ⟨List.prefix_append _ _, ?_⟩
    rw [List.length_append, List.length_eraseIdx_of_lt (by simp; omega), List.length_append,
      List.length_singleton]
    omega
  · refine .ret ⟨List.prefix_append _ _, ?_⟩
    simp only [List.length_append, List.length_singleton]
    omega

/-- The books of a run without a limit of time, after so many iterations were begun and so many
inputs were judged. Every input took a draw, of those that there were at first. -/
structure Books (s : Setup) (given begun judged : Nat) (c : Campaign) : Prop where
  setup : c.setup = s
  unlimited : c.deadline = none
  draws : c.draws.left + judged ≤ given
  begun : c.log.counts.iterations = begun
  tallied : Tallied s judged c.log.counts
  filed : Filed s.digest c.log
  corpus : Seeded c.corpus

variable {s : Setup} {given b j : Nat}

theorem Books.drawn {c : Campaign} (h : Books s given b j c) {d : Draws}
    (hd : d.left ≤ c.draws.left) : Books s given b j { c with draws := d } :=
  ⟨h.setup, h.unlimited, (Nat.add_le_add_right hd j).trans h.draws, h.begun, h.tallied, h.filed,
    h.corpus⟩

variable {P Q : Campaign → Prop} {E : DrawFault → Campaign → Prop}

/-- An iteration that takes the first seed, beside a grammar that accepts nothing. -/
example : (match (do start none; iterations 1 : Run Unit)
      { setup := { byGrammar := fun _ => none },
        draws := { given := [2000000000, 0, 2000000000] } } with
    | .ok _ c => decide (c.log.counts = { iterations := 1, accepted := 1, disagreements := 1 })
    | .error _ _ => false) = true := by decide +kernel

/-- An input that is rejected, and counted, when its time is over. -/
example : (check { late := fun _ _ => some .leaving } {} "(".toList).2.counts =
    { rejected := 1, timeouts := 1 } := by decide +kernel

end WidgetView.Fuzz
