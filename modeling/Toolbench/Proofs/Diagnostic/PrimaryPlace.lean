import Toolbench.Diagnostic.CompilerMessage
import Mathlib.Logic.Relation

/-!
# The place of a compiler message

A message lies at the last span of the chain of expansions that begins at its first primary span.
No other span of the message matters: `primary_span_decides` says where the diagnostic lies, and
that two messages whose first primary spans lead to the same last span have the same diagnostic,
whatever their other spans and the spans on the way are.
-/

namespace Toolbench

namespace CompilerSpan

variable {span outer last : CompilerSpan}

/-- The span lies in the expansion of a macro that is used at `outer`. -/
def IsUsedAt (span outer : CompilerSpan) : Prop :=
  span.expansion = some outer

/-- The chain of expansions that begins at the span ends at `last`. -/
structure EndsAt (span last : CompilerSpan) : Prop where
  chain : Relation.ReflTransGen IsUsedAt span last
  noFurther : last.expansion = none

theorem outermost_of_isUsedAt (h : span.IsUsedAt outer) : span.outermost = outer.outermost := by
  obtain ⟨file, lineStart, lineEnd, columnStart, columnEnd, isPrimary, expansion⟩ := span
  cases h
  exact outermost.eq_1 ..

theorem outermost_of_expansion_eq_none (h : span.expansion = none) : span.outermost = span := by
  obtain ⟨file, lineStart, lineEnd, columnStart, columnEnd, isPrimary, expansion⟩ := span
  cases h
  exact outermost.eq_2 _ nofun

/-- Every chain ends, at the outermost span. -/
theorem endsAt_outermost (span : CompilerSpan) : span.EndsAt span.outermost := by
  induction span using outermost.induct with
  | case1 file lineStart lineEnd columnStart columnEnd isPrimary outer ih =>
      rw [outermost]
      exact ⟨.head rfl ih.chain, ih.noFurther⟩
  | case2 span hspan =>
      have hnone : span.expansion = none := by
        obtain ⟨file, lineStart, lineEnd, columnStart, columnEnd, isPrimary, expansion⟩ := span
        cases expansion with
        | none => rfl
        | some outer => exact absurd rfl (hspan _ _ _ _ _ _ outer)
      rw [outermost_of_expansion_eq_none hnone]
      exact ⟨.refl, hnone⟩

/-- A chain ends nowhere else. -/
theorem EndsAt.outermost_eq (h : span.EndsAt last) : span.outermost = last := by
  obtain ⟨hchain, hlast⟩ := h
  induction hchain using Relation.ReflTransGen.head_induction_on with
  | refl => exact outermost_of_expansion_eq_none hlast
  | head hstep _ ih => exact (outermost_of_isUsedAt hstep).trans ih

end CompilerSpan

namespace CompilerMessage

/-- The span is the first primary one of these spans. -/
def IsFirstPrimary (primary : CompilerSpan) (spans : List CompilerSpan) : Prop :=
  ∃ before after, spans = before ++ primary :: after ∧ primary.isPrimary = true ∧
    ∀ span ∈ before, span.isPrimary = false

variable {message : CompilerMessage} {primary last : CompilerSpan} {spans : List CompilerSpan}

theorem find?_isPrimary_eq_some_iff :
    spans.find? (·.isPrimary) = some primary ↔ IsFirstPrimary primary spans := by
  rw [List.find?_eq_some_iff_append]
  simp only [IsFirstPrimary, Bool.not_eq_eq_eq_not, Bool.not_true]
  constructor
  · rintro ⟨hprimary, before, after, rfl, hbefore⟩
    exact ⟨before, after, rfl, hprimary, hbefore⟩
  · rintro ⟨before, after, rfl, hprimary, hbefore⟩
    exact ⟨hprimary, before, after, rfl, hbefore⟩

/-- A message has a place exactly when one of its spans is primary. -/
theorem isSome_place?_iff :
    message.place?.isSome = true ↔ ∃ span ∈ message.spans, span.isPrimary = true := by
  rw [place?, Option.isSome_map, List.find?_isSome]

/-- The place of a message is where the chain of its first primary span ends. -/
theorem place?_eq_some_iff : message.place? = some last ↔
    ∃ primary, IsFirstPrimary primary message.spans ∧ primary.EndsAt last := by
  rw [place?, Option.map_eq_some_iff]
  refine exists_congr fun primary => ?_
  rw [find?_isPrimary_eq_some_iff]
  refine and_congr_right fun _ => ⟨?_, CompilerSpan.EndsAt.outermost_eq⟩
  rintro rfl
  exact primary.endsAt_outermost

/-- A message has a diagnostic exactly when it has a primary span, and the diagnostic lies where
the chain of the first primary span ends. Messages that differ in their spans alone have the same
diagnostic when the chains of their first primary spans end at the same span. -/
theorem primary_span_decides (message : CompilerMessage) :
    ((∃ d, message.diagnostic? = some d) ↔ ∃ span ∈ message.spans, span.isPrimary = true) ∧
    (∀ d, message.diagnostic? = some d →
      ∃ primary last, IsFirstPrimary primary message.spans ∧ primary.EndsAt last ∧
        d.path = ⟨last.file⟩ ∧
        d.range = ⟨last.lineStart, last.columnStart, last.lineEnd, last.columnEnd⟩) ∧
    ∀ (before before' after after' : List CompilerSpan) (primary primary' last : CompilerSpan),
      (∀ span ∈ before ++ before', span.isPrimary = false) →
      primary.isPrimary = true → primary'.isPrimary = true →
      primary.EndsAt last → primary'.EndsAt last →
      { message with spans := before ++ primary :: after }.diagnostic?
        = { message with spans := before' ++ primary' :: after' }.diagnostic? := by
  refine ⟨?_, ?_, ?_⟩
  · rw [← isSome_place?_iff, ← Option.isSome_iff_exists, diagnostic?, Option.isSome_map]
  · intro d hd
    obtain ⟨last, hlast, rfl⟩ := Option.map_eq_some_iff.1 hd
    obtain ⟨primary, hprimary, hends⟩ := place?_eq_some_iff.1 hlast
    exact ⟨primary, last, hprimary, hends, rfl, rfl⟩
  · intro before before' after after' primary primary' last hbefore hprimary hprimary' hends hends'
    obtain ⟨hleft, hright⟩ := List.forall_mem_append.1 hbefore
    have hplace : { message with spans := before ++ primary :: after }.place? = some last :=
      place?_eq_some_iff.2 ⟨primary, ⟨before, after, rfl, hprimary, hleft⟩, hends⟩
    have hplace' : { message with spans := before' ++ primary' :: after' }.place? = some last :=
      place?_eq_some_iff.2 ⟨primary', ⟨before', after', rfl, hprimary', hright⟩, hends'⟩
    rw [diagnostic?, diagnostic?, hplace, hplace']

/-- Two chains of different lengths that end at one span, among other spans. The message lies at
that span, and its diagnostic is the same from either chain. -/
theorem primary_span_decides_two_chains :
    let last : CompilerSpan := ⟨"src/main.rs", 3, 4, 9, 2, false, none⟩
    let inner : CompilerSpan := ⟨"src/macros.rs", 20, 20, 5, 8, true, some last⟩
    let long : CompilerSpan := ⟨"/lib/macros.rs", 100, 100, 1, 4, true, some inner⟩
    let short : CompilerSpan := ⟨"src/gen.rs", 50, 50, 1, 2, true, some last⟩
    let aside : CompilerSpan := ⟨"src/b.rs", 1, 1, 1, 2, false, some long⟩
    let message : CompilerMessage := ⟨"mismatched types", none, "error", [], [], none⟩
    { message with spans := [aside, long] }.diagnostic?
        = { message with spans := [short, inner, aside] }.diagnostic? ∧
      ∃ d, { message with spans := [aside, long] }.diagnostic? = some d ∧
        d.path = ⟨"src/main.rs"⟩ ∧ d.range = ⟨3, 9, 4, 2⟩ := by
  intro last inner long short aside message
  refine ⟨(primary_span_decides message).2.2 [aside] [] [] [inner, aside] long short last
    (by simp [aside]) rfl rfl ⟨.head rfl (.head rfl .refl), rfl⟩ ⟨.head rfl .refl, rfl⟩, ?_⟩
  exact ⟨_, rfl, rfl, rfl⟩

end CompilerMessage

end Toolbench
