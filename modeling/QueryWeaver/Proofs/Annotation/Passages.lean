import Mathlib
import QueryWeaver.Proofs.Source.Tokens
/-!
A token list read in passages, each a token or a comment with the code after it. The passages
share no token, and their segments in order are the segments of the list, whatever the tokens are.
-/

namespace QueryWeaver

/-- The annotations of a comment that has some. -/
def Token.annotations? : Token → Option Annotations
  | code _ => none
  | comment t => if (Comment.annotations t).isEmpty then none else some (Comment.annotations t)

theorem Token.annotations?_code (u : Text) : (code u).annotations? = none := rfl

theorem Token.annotations?_of_entries {t : Text} {a : Annotations}
    (same : Comment.annotations t = a) (entries : ¬a.isEmpty = true) :
    (comment t).annotations? = some a := by
  subst same
  exact if_neg entries

theorem Token.annotations?_of_empty {t : Text} (empty : (Comment.annotations t).isEmpty = true) :
    (comment t).annotations? = none := if_pos empty

namespace Segment

/-- Tokens read together, and their segments. A comment with annotations is followed by one block,
whose code is the beginning of the code directly after the comment. -/
inductive Passage : List Token → List Segment → Prop
  | kept {token : Token} (unannotated : token.annotations? = none) :
      Passage [token] [plain token.text]
  | alone {t : Text} {a : Annotations} (entries : (Token.comment t).annotations? = some a) :
      Passage [.comment t] [plain t, annotated ⟨a, [], false⟩]
  | claiming {t u : Text} {block : Block} {rest : List Segment}
      (entries : (Token.comment t).annotations? = some block.annotations)
      (whole : block.code ++ render rest = u) (blockless : ∀ s ∈ rest, s.block? = none) :
      Passage [.comment t, .code u] (plain t :: annotated block :: rest)

/-- The block of a claim comes first and its code begins the claimed text. -/
theorem claim_parts (a : Annotations) (u : Text) :
    ∃ block rest, claim a u = annotated block :: rest ∧ block.annotations = a ∧
      block.code ++ render rest = u ∧ ∀ s ∈ rest, s.block? = none := by
  have whole := render_claim a u
  unfold claim at whole ⊢
  split at whole
  next f rest cut =>
    refine ⟨_, _, rfl, rfl, whole, ?_⟩
    split <;> simp [block?]
  next => exact ⟨_, _, rfl, rfl, whole, by simp [block?]⟩

/-- One block per comment with annotations, in the order of the comments. -/
theorem Passage.blocks {tokens : List Token} {segments : List Segment}
    (passage : Passage tokens segments) :
    (segments.filterMap block?).map Block.annotations =
      tokens.filterMap Token.annotations? := by
  cases passage with
  | kept unannotated =>
    simp only [List.filterMap_cons, List.filterMap_nil, List.map_nil, block?, unannotated]
  | alone entries =>
    simp only [List.filterMap_cons, List.filterMap_nil, List.map_cons, List.map_nil, block?,
      entries]
  | claiming entries _ blockless =>
    have none := List.filterMap_eq_nil_iff.mpr blockless
    simp only [List.filterMap_cons, List.filterMap_nil, List.map_cons, List.map_nil, block?,
      entries, none, Token.annotations?_code]

theorem exists_passages (tokens : List Token) :
    ∃ passages : List (List Token × List Segment), (∀ p ∈ passages, Passage p.1 p.2) ∧
      passages.flatMap Prod.fst = tokens ∧ passages.flatMap Prod.snd = ofTokens tokens := by
  -- one passage more for the tokens that the first equation of `ofTokens` to fit takes
  have more {read rest : List Token} {first segments : List Segment} (passage : Passage read first)
      (later : ∃ passages : List (List Token × List Segment), (∀ p ∈ passages, Passage p.1 p.2) ∧
        passages.flatMap Prod.fst = rest ∧ passages.flatMap Prod.snd = segments) :
      ∃ passages : List (List Token × List Segment), (∀ p ∈ passages, Passage p.1 p.2) ∧
        passages.flatMap Prod.fst = read ++ rest ∧
        passages.flatMap Prod.snd = first ++ segments := by
    obtain ⟨passages, each, tokens, segments⟩ := later
    refine ⟨(read, first) :: passages, ?_, ?_, ?_⟩
    · exact List.forall_mem_cons.mpr ⟨passage, each⟩
    · rw [List.flatMap_cons, tokens]
    · rw [List.flatMap_cons, segments]
  fun_induction ofTokens tokens with
  | case1 => exact ⟨[], by simp⟩
  | case2 t r ih => exact more (.kept rfl) ih
  | case3 t u r a empty ih =>
    exact more (.kept (Token.annotations?_of_empty empty)) (more (.kept rfl) ih)
  | case4 t u r a entries ih =>
    obtain ⟨block, rest, claimed, annotations, whole, blockless⟩ := claim_parts a u
    rw [claimed]
    exact more (.claiming (Token.annotations?_of_entries annotations.symm (annotations ▸ entries))
      whole blockless) ih
  | case5 t r last a empty ih => exact more (.kept (Token.annotations?_of_empty empty)) ih
  | case6 t r last a entries ih =>
    exact more (.alone (Token.annotations?_of_entries rfl entries)) ih

/-- Tokens and segments lose nothing. The blocks of any token list are those of its comments with
annotations, each directly after its comment, and no code is read for two of them. -/
theorem ofTokens_passages (source : Text) (tokens : List Token) :
    Token.join (Token.tokenize source) = source ∧ render (ofSource source) = source ∧
      render (ofTokens tokens) = Token.join tokens ∧
      ((ofTokens tokens).filterMap block?).map Block.annotations =
        tokens.filterMap Token.annotations? ∧
      ∃ passages : List (List Token × List Segment), (∀ p ∈ passages, Passage p.1 p.2) ∧
        passages.flatMap Prod.fst = tokens ∧ passages.flatMap Prod.snd = ofTokens tokens := by
  obtain ⟨passages, each, read, cut⟩ := exists_passages tokens
  refine ⟨Token.join_tokenize source, render_ofSource source, render_ofTokens tokens, ?_,
    passages, each, read, cut⟩
  rw [← cut, ← read, List.filterMap_flatMap, List.filterMap_flatMap, List.map_flatMap]
  exact List.flatMap_congr fun p member => (each p member).blocks

end Segment
end QueryWeaver
