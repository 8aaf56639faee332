import Mathlib
import QueryWeaver.Proofs.Source.Rewritten
/-!
Segments with new code in some of their blocks, cut again from the text they make. The comments
claim the new functions, and every segment comes back as it was left.
-/

namespace QueryWeaver

namespace Token

theorem Rewritten.not_code {ok : Text → Prop} {r r' : List Token} (rewritten : Rewritten ok r r')
    (last : ∀ u q, r ≠ code u :: q) : ∀ u q, r' ≠ code u :: q := by
  rintro u q rfl
  cases rewritten
  exact last _ _ rfl

end Token

namespace Segment

/-- A segment that is the same or has a new code in a block whose body was closed. -/
inductive Updated (ok : Text → Prop) : Segment → Segment → Prop
  | same (segment : Segment) : Updated ok segment segment
  | code {block : Block} {g : Text} (shut : block.unclosed = false) (fits : ok g) :
      Updated ok (annotated block) (annotated { block with code := g })

theorem Updated.text_eq {ok : Text → Prop} {t : Text} {segment : Segment}
    (updated : Updated ok (plain t) segment) : segment = plain t := by
  cases updated
  rfl

theorem updated_plains {ok : Text → Prop} {plains segments segments' : List Segment}
    (blockless : ∀ s ∈ plains, s.block? = none)
    (updated : List.Forall₂ (Updated ok) (plains ++ segments) segments') :
    ∃ rest, segments' = plains ++ rest ∧ List.Forall₂ (Updated ok) segments rest := by
  induction plains generalizing segments' with
  | nil => exact ⟨segments', rfl, updated⟩
  | cons s plains ih =>
    obtain ⟨s', tail', head, tail, rfl⟩ := List.forall₂_cons_left_iff.mp updated
    obtain ⟨rest, rfl, after⟩ := ih (fun s member => blockless s (by simp [member])) tail
    cases s with
    | plain t => exact ⟨rest, by rw [head.text_eq]; rfl, after⟩
    | annotated block => cases blockless _ (List.mem_cons_self ..)

theorem claim_append {a : Annotations} {g rest : Text} {p : Char → Prop}
    (function : IsFunction p g) :
    claim a (g ++ rest) = annotated ⟨a, g, false⟩ :: if rest.isEmpty then [] else [plain rest] := by
  rw [claim, function.split?_append]

theorem ofTokens_comment {t : Text} {r : List Token} (last : ∀ u q, r ≠ .code u :: q) :
    ofTokens (.comment t :: r) =
      plain t :: ((if (Comment.annotations t).isEmpty then []
        else [annotated ⟨Comment.annotations t, [], false⟩]) ++ ofTokens r) := by
  rw [ofTokens]
  · split <;> rfl
  · exact fun u q same => last u q same

/-- The annotations of a block are those of a comment of the source. -/
theorem ofTokens_comment_of_block {tokens : List Token} {block : Block}
    (member : annotated block ∈ ofTokens tokens) :
    ∃ t, .comment t ∈ tokens ∧ block.annotations = Comment.annotations t := by
  fun_induction ofTokens tokens with
  | case1 => cases member
  | case2 t r ih =>
    obtain ⟨q, known, same⟩ := ih (by simpa using member)
    exact ⟨q, List.mem_cons_of_mem _ known, same⟩
  | case3 t u r a plainComment ih =>
    obtain ⟨q, known, same⟩ := ih (by simpa using member)
    exact ⟨q, by simp [known], same⟩
  | case4 t u r a entries ih =>
    have inside := (List.mem_cons.mp member).resolve_left (by simp)
    rcases List.mem_append.mp inside with claimed | later
    · refine ⟨t, by simp, ?_⟩
      unfold claim at claimed
      split at claimed
      next =>
        split at claimed
        all_goals
          simp only [List.mem_cons, annotated.injEq, reduceCtorEq, List.not_mem_nil, or_false]
            at claimed
          rw [claimed]
      next =>
        simp only [List.mem_cons, annotated.injEq, reduceCtorEq, List.not_mem_nil, or_false]
          at claimed
        rw [claimed]
    · obtain ⟨q, known, same⟩ := ih later
      exact ⟨q, by simp [known], same⟩
  | case5 t r _ a plainComment ih =>
    obtain ⟨q, known, same⟩ := ih (by simpa using member)
    exact ⟨q, List.mem_cons_of_mem _ known, same⟩
  | case6 t r _ a entries ih =>
    rcases List.mem_cons.mp ((List.mem_cons.mp member).resolve_left (by simp)) with here | later
    · cases here
      exact ⟨t, by simp, rfl⟩
    · obtain ⟨q, known, same⟩ := ih later
      exact ⟨q, List.mem_cons_of_mem _ known, same⟩

variable {ok : Text → Prop} {p : Char → Prop} (insertable : ∀ g, ok g → Token.Insertable p g)
include insertable

/-- The segments of a claimed code, updated, are the segments of the code with its function
replaced. -/
theorem updated_claim {a : Annotations} {u : Text} {segments segments' : List Segment}
    (ne : u ≠ []) (updated : List.Forall₂ (Updated ok) (claim a u ++ segments) segments') :
    ∃ q rest', segments' = claim a q ++ rest' ∧ List.Forall₂ (Updated ok) segments rest' ∧
      (q = u ∨ ∃ g rest, ok g ∧ Stub.Leaves u rest ∧ q = g ++ rest) := by
  cases cut : Stub.split? u with
  | some parts =>
    obtain ⟨f, rest⟩ := parts
    have whole : claim a u =
        annotated ⟨a, f, false⟩ :: if rest.isEmpty then [] else [plain rest] := by
      rw [claim, cut]
    rw [whole, List.cons_append] at updated
    obtain ⟨s, segs, head, tail, rfl⟩ := List.forall₂_cons_left_iff.mp updated
    obtain ⟨rest', rfl, after⟩ := updated_plains (by split <;> simp [block?]) tail
    cases head with
    | same => exact ⟨u, rest', by rw [whole]; rfl, after, .inl rfl⟩
    | @code _ g shut fits =>
      refine ⟨g ++ rest, rest', ?_, after, .inr ⟨g, rest, fits, .inl ⟨f, cut⟩, rfl⟩⟩
      rw [claim_append (insertable g fits).function]
      rfl
  | none =>
    have whole : claim a u = [annotated ⟨a, [], Stub.opensBody u⟩, plain u] := by
      rw [claim, cut]
    rw [whole, List.cons_append] at updated
    obtain ⟨s, segs, head, tail, rfl⟩ := List.forall₂_cons_left_iff.mp updated
    obtain ⟨rest', rfl, after⟩ := updated_plains (by simp [block?]) tail
    cases head with
    | same => exact ⟨u, rest', by rw [whole]; rfl, after, .inl rfl⟩
    | @code _ g shut fits =>
      refine ⟨g ++ u, rest', ?_, after, .inr ⟨g, u, fits, .inr ⟨cut, rfl⟩, rfl⟩⟩
      rw [claim_append (insertable g fits).function, if_neg (by simpa using ne), ← shut]
      rfl

/-- Updated segments are the segments of rewritten tokens. -/
theorem exists_rewritten {tokens : List Token} {segments : List Segment}
    (lexed : Token.Lexed tokens)
    (updated : List.Forall₂ (Updated ok) (ofTokens tokens) segments) :
    ∃ tokens', Token.Rewritten ok tokens tokens' ∧ ofTokens tokens' = segments := by
  fun_induction ofTokens tokens generalizing segments with
  | case1 =>
    cases updated
    exact ⟨[], .nil, rfl⟩
  | case2 t r ih =>
    obtain ⟨s, rest, head, tail, rfl⟩ := List.forall₂_cons_left_iff.mp updated
    obtain ⟨r', rewritten, rfl⟩ := ih lexed.tail tail
    exact ⟨.code t :: r', rewritten.keep _, by rw [head.text_eq]; rfl⟩
  | case3 t u r a plainComment =>
    rename_i ih
    obtain ⟨s, rest, head, tail, rfl⟩ := List.forall₂_cons_left_iff.mp updated
    obtain ⟨s', rest', head', tail', rfl⟩ := List.forall₂_cons_left_iff.mp tail
    obtain ⟨r', rewritten, rfl⟩ := ih lexed.tail.tail tail'
    refine ⟨.comment t :: .code u :: r', (rewritten.keep _).keep _, ?_⟩
    rw [head.text_eq, head'.text_eq, ofTokens, if_pos plainComment]
  | case4 t u r a entries =>
    rename_i ih
    obtain ⟨s, rest, head, tail, rfl⟩ := List.forall₂_cons_left_iff.mp updated
    obtain ⟨q, rest', rfl, after, code⟩ := updated_claim insertable lexed.tail.1 tail
    obtain ⟨r', rewritten, rfl⟩ := ih lexed.tail.tail after
    refine ⟨.comment t :: .code q :: r', ?_, ?_⟩
    · rcases code with rfl | ⟨g, left, fits, leaves, rfl⟩
      · exact (rewritten.keep _).keep _
      · exact .claim leaves fits rewritten
    · rw [head.text_eq, ofTokens, if_neg entries]
  | case5 t r last a plainComment =>
    rename_i ih
    obtain ⟨s, rest, head, tail, rfl⟩ := List.forall₂_cons_left_iff.mp updated
    obtain ⟨r', rewritten, rfl⟩ := ih lexed.tail tail
    refine ⟨.comment t :: r', rewritten.keep _, ?_⟩
    rw [head.text_eq, ofTokens_comment (rewritten.not_code fun u q same => last u q same),
      if_pos plainComment]
    rfl
  | case6 t r last a entries =>
    rename_i ih
    obtain ⟨s, rest, head, tail, rfl⟩ := List.forall₂_cons_left_iff.mp updated
    obtain ⟨s', rest', head', tail', rfl⟩ := List.forall₂_cons_left_iff.mp tail
    obtain ⟨r', rewritten, rfl⟩ := ih lexed.tail tail'
    cases head' with
    | same =>
      refine ⟨.comment t :: r', rewritten.keep _, ?_⟩
      rw [head.text_eq, ofTokens_comment (rewritten.not_code fun u q same => last u q same),
        if_neg entries]
      rfl
    | @code _ g shut fits =>
      refine ⟨.comment t :: .code g :: r', ?_, ?_⟩
      · exact .insert (fun u q same => last u q same) fits rewritten
      · have whole : claim a (g ++ []) = _ := claim_append (insertable g fits).function
        rw [List.append_nil] at whole
        rw [head.text_eq, ofTokens, if_neg entries, whole]
        rfl

end Segment
end QueryWeaver
