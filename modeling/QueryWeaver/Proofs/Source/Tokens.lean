import Mathlib
import QueryWeaver.Annotation.Segment
/-!
Tokens and segments of a source lose nothing: joined in order they give the source back.
-/

namespace QueryWeaver

namespace Token

theorem join_cons (token : Token) (r : List Token) : join (token :: r) = token.text ++ join r :=
  List.flatMap_cons

theorem join_tokenize (t : Text) : join (tokenize t) = t := by
  fun_induction tokenize t with
  | case1 => rfl
  | case2 c r body rest comment ih =>
    rw [join_cons, ih]
    exact comment?_append comment
  | case3 c r plain ih =>
    rw [join_cons, ih]
    exact spanCode_append .between (c :: r)

end Token

theorem Stub.splitFrom_eq {s : LiteralState} {depth : Nat} {t f rest : Text}
    (cut : splitFrom s depth t = some (f, rest)) : f ++ rest = t := by
  induction t generalizing s depth f with
  | nil => simp [splitFrom] at cut
  | cons c r ih =>
    have head {s : LiteralState} {depth : Nat}
        (cut : (splitFrom s depth r).map (fun q => (c :: q.1, q.2)) = some (f, rest)) :
        f ++ rest = c :: r := by
      obtain ⟨⟨f', rest'⟩, later, same⟩ := Option.map_eq_some_iff.mp cut
      obtain ⟨rfl, rfl⟩ := same
      exact congrArg (c :: ·) (ih later)
    simp only [splitFrom] at cut
    split at cut
    next => exact head cut
    split at cut
    next => exact head cut
    split at cut
    next =>
      obtain ⟨rfl, rfl⟩ := cut
      rfl
    split at cut
    all_goals exact head cut

theorem Stub.split?_eq {code f rest : Text} (cut : split? code = some (f, rest)) :
    f ++ rest = code :=
  splitFrom_eq cut

namespace Segment

theorem render_cons (segment : Segment) (r : List Segment) :
    render (segment :: r) = segment.text ++ render r :=
  List.flatMap_cons

theorem render_append (a b : List Segment) : render (a ++ b) = render a ++ render b :=
  List.flatMap_append

theorem render_claim (a : Annotations) (code : Text) : render (claim a code) = code := by
  unfold claim
  split
  next function rest cut =>
    have whole : function ++ rest = code := Stub.split?_eq cut
    cases rest with
    | nil => simpa [render, text] using whole
    | cons c r => simpa [render, text] using whole
  next => simp [render, text]

theorem render_ofTokens (tokens : List Token) : render (ofTokens tokens) = Token.join tokens := by
  fun_induction ofTokens tokens with
  | case1 => rfl
  | case2 t r ih => simp [render_cons, Token.join_cons, ih, text, Token.text]
  | case3 t u r a empty ih => simp [render_cons, Token.join_cons, ih, text, Token.text]
  | case4 t u r a entries ih =>
    simp [render_cons, render_append, render_claim, Token.join_cons, ih, text, Token.text]
  | case5 t r _ a empty ih => simp [render_cons, Token.join_cons, ih, text, Token.text]
  | case6 t r _ a entries ih => simp [render_cons, Token.join_cons, ih, text, Token.text]

theorem render_ofSource (source : Text) : render (ofSource source) = source := by
  rw [ofSource, render_ofTokens, Token.join_tokenize]

end Segment
end QueryWeaver
