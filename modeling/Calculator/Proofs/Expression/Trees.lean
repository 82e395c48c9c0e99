import Mathlib.Data.List.Pairwise
import Calculator.Proofs.Expression.Acceptance
import Calculator.Proofs.Expression.Lexing
import Calculator.Proofs.Expression.Parts

/-!
What the nodes of a tree read from a text are like: where they lie in the text, and that the language
has them.
-/
namespace Calculator

namespace Expr

/-- Every node has an extent of its own between two offsets. -/
def Spans (low high : Nat) (e : Expr) : Prop :=
  ∀ part : Expr, part.PartOf e →
    low ≤ part.range.start ∧ part.range.start < part.range.stop ∧ part.range.stop ≤ high

/-- The children of a node lie inside it, one behind the other. -/
structure Laid (e : Expr) : Prop where
  extent : e.range.start < e.range.stop
  inside : ∀ child ∈ e.children, e.range.start ≤ child.range.start ∧ child.range.stop ≤ e.range.stop
  apart : e.children.Pairwise fun first second => first.range.stop ≤ second.range.start

theorem Laid.apart_of_ne {e a b : Expr} (laid : e.Laid) (first : a ∈ e.children)
    (second : b ∈ e.children) (different : a ≠ b) :
    a.range.stop ≤ b.range.start ∨ b.range.stop ≤ a.range.start := by
  have symmetric : Std.Symm fun a b : Expr =>
    a.range.stop ≤ b.range.start ∨ b.range.stop ≤ a.range.start := ⟨fun _ _ => Or.symm⟩
  have apart := laid.apart.imp fun {a b} before =>
    (Or.inl before : a.range.stop ≤ b.range.start ∨ b.range.stop ≤ a.range.start)
  exact apart.forall first second different

def Arranged (e : Expr) : Prop :=
  ∀ part : Expr, part.PartOf e → part.Laid

theorem arranged_iff {e : Expr} : e.Arranged ↔ e.Laid ∧ ∀ child ∈ e.children, child.Arranged :=
  forall_parts_iff

theorem Arranged.inside {part e : Expr} (arranged : e.Arranged) (inner : part.PartOf e) :
    e.range.start ≤ part.range.start ∧ part.range.stop ≤ e.range.stop := by
  induction inner with
  | whole => exact ⟨Nat.le_refl _, Nat.le_refl _⟩
  | @inside child e member _ ih =>
    obtain ⟨laid, below⟩ := arranged_iff.mp arranged
    have child' := laid.inside child member
    have deeper := ih (below child member)
    omega

/-- Of two nodes one holds the other, or one ends before the other begins. -/
theorem Arranged.nested_or_apart {tree a b : Expr} (arranged : tree.Arranged) (first : a.PartOf tree)
    (second : b.PartOf tree) :
    a.PartOf b ∨ b.PartOf a ∨ a.range.stop ≤ b.range.start ∨ b.range.stop ≤ a.range.start := by
  induction first with
  | whole => exact .inr (.inl second)
  | @inside child tree member inner ih =>
    rcases second.eq_or_inside with rfl | ⟨child', member', inner'⟩
    · exact .inl (.inside member inner)
    obtain ⟨laid, below⟩ := arranged_iff.mp arranged
    by_cases same : child = child'
    · subst same
      exact ih (below child member) inner'
    -- the two children stand apart, and so does all that is in them
    have apart := laid.apart_of_ne member member' same
    have within := (below child member).inside inner
    have within' := (below child' member').inside inner'
    omega

/-- An arranged tree between two offsets. -/
structure LiesIn (low high : Nat) (e : Expr) : Prop where
  first : low ≤ e.range.start
  last : e.range.stop ≤ high
  arranged : e.Arranged

theorem LiesIn.spans {low high : Nat} {e : Expr} (lies : e.LiesIn low high) : e.Spans low high := by
  intro part inner
  have within := lies.arranged.inside inner
  have first := lies.first
  have last := lies.last
  exact ⟨by omega, (lies.arranged part inner).extent, by omega⟩

theorem LiesIn.extent {low high : Nat} {e : Expr} (lies : e.LiesIn low high) :
    e.range.start < e.range.stop :=
  (lies.arranged e .whole).extent

end Expr

/-- Trees one behind the other between two offsets. -/
structure LieApart (low high : Nat) (es : List Expr) : Prop where
  each : ∀ e ∈ es, e.LiesIn low high
  apart : es.Pairwise fun first second => first.range.stop ≤ second.range.start

theorem LieApart.arranged {low high : Nat} {e : Expr} (children : LieApart low high e.children)
    (extent : e.range.start < e.range.stop) (first : e.range.start ≤ low) (last : high ≤ e.range.stop) :
    e.Arranged := by
  refine Expr.arranged_iff.mpr ⟨⟨extent, fun child member => ?_, children.apart⟩, fun child member => ?_⟩
  · have lies := children.each child member
    exact ⟨Nat.le_trans first lies.first, Nat.le_trans lies.last last⟩
  · exact (children.each child member).arranged

theorem lieApart_nil (low high : Nat) : LieApart low high [] :=
  ⟨by simp, .nil⟩

theorem LieApart.singleton {low high : Nat} {e : Expr} (lies : e.LiesIn low high) :
    LieApart low high [e] :=
  ⟨by simpa using lies, List.pairwise_singleton _ _⟩

theorem LieApart.cons {low high low' high' : Nat} {e : Expr} {es : List Expr} (lies : e.LiesIn low high)
    (rest : LieApart low' high' es) (order : high ≤ low') (wide : low' ≤ high') :
    LieApart low high' (e :: es) := by
  constructor
  · simp only [List.mem_cons, forall_eq_or_imp]
    refine ⟨⟨lies.first, ?_, lies.arranged⟩, fun e' member => ?_⟩
    · exact Nat.le_trans lies.last (Nat.le_trans order wide)
    · have lies' := rest.each e' member
      have before : low ≤ low' :=
        Nat.le_trans lies.first (Nat.le_trans (Nat.le_of_lt lies.extent) (Nat.le_trans lies.last order))
      exact ⟨Nat.le_trans before lies'.first, lies'.last, lies'.arranged⟩
  · refine List.pairwise_cons.mpr ⟨fun e' member => ?_, rest.apart⟩
    have before := lies.last
    have behind := (rest.each e' member).first
    omega

theorem Items.lieApart {low high : Nat} {items : Items} (ordered : Ordered low high items.tokens)
    (inner : ∀ p ∈ items.phrases, ∀ low high, Ordered low high p.tokens → p.tree.LiesIn low high) :
    LieApart low high items.trees := by
  induction items generalizing low with
  | none => exact lieApart_nil low high
  | last item => exact .singleton (inner item (by simp [phrases]) low high ordered)
  | more item comma rest ih =>
    obtain ⟨_, extent, last, before, behind⟩ : low ≤ comma.start ∧ comma.start < comma.stop ∧
      comma.stop ≤ high ∧ Ordered low comma.start item.tokens ∧
        Ordered comma.stop high rest.tokens := Ordered.split ordered
    have first := inner item (by simp [phrases]) low comma.start before
    have later := ih behind fun p member => inner p (by simp [phrases, member])
    exact .cons first later (Nat.le_of_lt extent) last

/-- The trees of items between two tokens lie between these. -/
theorem Items.lieApart_enclosed {low high : Nat} {items : Items} {opening closing : Token}
    (ordered : Ordered low high (opening :: items.tokens ++ [closing]))
    (inner : ∀ p ∈ items.phrases, ∀ low high, Ordered low high p.tokens → p.tree.LiesIn low high) :
    low ≤ opening.range.start ∧ opening.range.start < closing.range.stop ∧ closing.range.stop ≤ high ∧
      LieApart opening.range.start closing.range.stop items.trees := by
  obtain ⟨first, extent, _, rest⟩ := ordered
  obtain ⟨after, extent', last, between, _⟩ := rest.split
  have wide : Ordered opening.range.start closing.range.stop items.tokens :=
    between.mono (Nat.le_of_lt extent) (Nat.le_of_lt extent')
  exact ⟨first, by omega, last, lieApart wide inner⟩

theorem Derives.liesIn {c : Category} {p : Phrase} (derives : Derives c p) :
    ∀ low high, Ordered low high p.tokens → p.tree.LiesIn low high := by
  refine phrase_induction
    (motive := fun p => ∀ low high, Ordered low high p.tokens → p.tree.LiesIn low high)
    ?_ ?_ ?_ ?_ ?_ ?_ ?_ derives
  · intro raw range low high ordered
    obtain ⟨first, extent, last, _⟩ := ordered
    have children := lieApart_nil range.start range.stop
    exact ⟨first, last, children.arranged extent (Nat.le_refl _) (Nat.le_refl _)⟩
  · intro text range low high ordered
    obtain ⟨first, extent, last, _⟩ := ordered
    have children := lieApart_nil range.start range.stop
    exact ⟨first, last, children.arranged extent (Nat.le_refl _) (Nat.le_refl _)⟩
  · intro opening closing p ih low high ordered
    obtain ⟨first, extent, _, rest⟩ : low ≤ opening.start ∧ opening.start < opening.stop ∧
      opening.stop ≤ high ∧
        Ordered opening.stop high (p.tokens ++ [Token.mk .rightParen closing]) := ordered
    obtain ⟨after, extent', last, between, _⟩ := rest.split
    exact ih low high (between.mono (by omega) (Nat.le_trans (Nat.le_of_lt extent') last))
  · intro text range opening closing args ih low high ordered
    obtain ⟨first, extent, _, rest⟩ : low ≤ range.start ∧ range.start < range.stop ∧
      range.stop ≤ high ∧ Ordered range.stop high
        (Token.mk .leftParen opening :: args.tokens ++ [Token.mk .rightParen closing]) := ordered
    obtain ⟨next, wide, last, children⟩ := Items.lieApart_enclosed rest ih
    have before : range.start ≤ opening.start := Nat.le_trans (Nat.le_of_lt extent) next
    exact ⟨first, last, children.arranged (Nat.lt_of_le_of_lt before wide) before (Nat.le_refl _)⟩
  · intro opening closing elements ih low high ordered
    obtain ⟨first, wide, last, children⟩ := Items.lieApart_enclosed ordered ih
    exact ⟨first, last, children.arranged wide (Nat.le_refl _) (Nat.le_refl _)⟩
  · intro negative range p ih low high ordered
    obtain ⟨first, extent, _, rest⟩ : low ≤ range.start ∧ range.start < range.stop ∧
      range.stop ≤ high ∧ Ordered range.stop high p.tokens := ordered
    have inner := ih _ _ rest
    have before := inner.first
    have wide := inner.extent
    have tight : p.tree.LiesIn range.stop p.tree.range.stop := ⟨before, Nat.le_refl _, inner.arranged⟩
    exact ⟨first, inner.last, (LieApart.singleton tight).arranged (Nat.lt_of_lt_of_le extent
      (Nat.le_trans before (Nat.le_of_lt wide))) (Nat.le_of_lt extent) (Nat.le_refl _)⟩
  · intro left op range right first second low high ordered
    obtain ⟨_, extent, _, before, behind⟩ : low ≤ range.start ∧ range.start < range.stop ∧
      range.stop ≤ high ∧ Ordered low range.start left.tokens ∧
        Ordered range.stop high right.tokens := Ordered.split ordered
    have left' := first _ _ before
    have right' := second _ _ behind
    have tight : left.tree.LiesIn left.tree.range.start range.start :=
      ⟨Nat.le_refl _, left'.last, left'.arranged⟩
    have tight' : right.tree.LiesIn range.stop right.tree.range.stop :=
      ⟨right'.first, Nat.le_refl _, right'.arranged⟩
    have wide : left.tree.range.start < right.tree.range.stop := by
      have := left'.extent
      have := left'.last
      have := right'.first
      have := right'.extent
      omega
    have order : range.stop ≤ right.tree.range.stop :=
      Nat.le_trans right'.first (Nat.le_of_lt right'.extent)
    have children := LieApart.cons tight (.singleton tight') (Nat.le_of_lt extent) order
    exact ⟨left'.first, right'.last, children.arranged wide (Nat.le_refl _) (Nat.le_refl _)⟩

theorem Derives.readable {c : Category} {p : Phrase} (derives : Derives c p)
    (literals : ∀ raw range, ⟨.number raw, range⟩ ∈ p.tokens → (Binary64.ofText raw).isFinite) :
    ∀ part : Expr, part.PartOf p.tree → part.Readable := by
  revert literals
  refine phrase_induction
    (motive := fun p =>
      (∀ raw range, ⟨.number raw, range⟩ ∈ p.tokens → (Binary64.ofText raw).isFinite) →
        ∀ part : Expr, part.PartOf p.tree → part.Readable)
    ?_ ?_ ?_ ?_ ?_ ?_ ?_ derives
  · intro raw range literals
    have finite := literals raw range List.mem_cons_self
    exact Expr.forall_parts_iff.mpr ⟨finite, by simp [Phrase.number, Expr.children]⟩
  · intro text range _
    exact Expr.forall_parts_iff.mpr ⟨trivial, by simp [Phrase.name, Expr.children]⟩
  · intro opening closing p ih literals
    exact ih fun raw range member => literals raw range (by simp [Phrase.group, member])
  · intro text range opening closing args ih literals
    refine Expr.forall_parts_iff.mpr ⟨trivial, fun e member => ?_⟩
    obtain ⟨p, inArgs, rfl⟩ := List.mem_map.mp member
    refine ih p inArgs fun raw range' inside => literals raw range' ?_
    have held := (args.number_mem_tokens_iff raw range').mpr ⟨p, inArgs, inside⟩
    simp [Phrase.call, held]
  · intro opening closing elements ih literals
    refine Expr.forall_parts_iff.mpr ⟨trivial, fun e member => ?_⟩
    obtain ⟨p, inElements, rfl⟩ := List.mem_map.mp member
    refine ih p inElements fun raw range inside => literals raw range ?_
    have held := (elements.number_mem_tokens_iff raw range).mpr ⟨p, inElements, inside⟩
    simp [Phrase.list, held]
  · intro negative range p ih literals
    have inner := ih fun raw range' member => literals raw range' (by simp [Phrase.signed, member])
    cases negative <;>
      exact Expr.forall_parts_iff.mpr ⟨trivial, by simpa [Phrase.signed, Expr.children] using inner⟩
  · intro left op range right first second literals
    have left' := first fun raw range' member =>
      literals raw range' (by simp [Phrase.operation, member])
    have right' := second fun raw range' member =>
      literals raw range' (by simp [Phrase.operation, member])
    exact Expr.forall_parts_iff.mpr
      ⟨trivial, by simpa [Phrase.operation, Expr.children] using ⟨left', right'⟩⟩

/-- What is so of every node by the tokens that it is read from is so of all nodes of a tree. -/
theorem Derives.forall_parts {P : List Token → Expr → Prop}
    (mono : ∀ {tokens tokens' e}, P tokens e → tokens ⊆ tokens' → P tokens' e)
    (number : ∀ raw range, P [⟨.number raw, range⟩] (.number (.ofText raw) raw range))
    (name : ∀ text range, P [⟨.name text, range⟩] (.name text range))
    (call : ∀ text range args whole, P [⟨.name text, range⟩] (.call text args whole))
    (list : ∀ elements range, P [] (.list elements range))
    (unary : ∀ op operand range, P [] (.unary op operand range))
    (binary : ∀ op left right range, P [] (.binary op left right range))
    {c : Category} {p : Phrase} (derives : Derives c p) :
    ∀ part : Expr, part.PartOf p.tree → P p.tokens part := by
  -- the parts of a phrase inside another one are read from fewer tokens
  have grown : ∀ {p : Phrase} {tokens : List Token},
      (∀ part : Expr, part.PartOf p.tree → P p.tokens part) → p.tokens ⊆ tokens →
        ∀ part : Expr, part.PartOf p.tree → P tokens part :=
    fun held subset part inside => mono (held part inside) subset
  refine phrase_induction (motive := fun p => ∀ part : Expr, part.PartOf p.tree → P p.tokens part)
    ?_ ?_ ?_ ?_ ?_ ?_ ?_ derives
  · intro raw range
    exact Expr.forall_parts_iff.mpr ⟨number raw range, by simp [Phrase.number, Expr.children]⟩
  · intro text range
    exact Expr.forall_parts_iff.mpr ⟨name text range, by simp [Phrase.name, Expr.children]⟩
  · intro opening closing p ih
    exact @grown p (Phrase.group opening closing p).tokens ih (by simp [Phrase.group])
  · intro text range opening closing args ih
    refine Expr.forall_parts_iff.mpr ⟨mono (call text range _ _) (by simp [Phrase.call]), ?_⟩
    intro e member
    obtain ⟨p, inArgs, rfl⟩ := List.mem_map.mp member
    have inside := (Items.tokens_inside inArgs).subset
    exact grown (ih p inArgs) fun token listed => by simp [Phrase.call, inside listed]
  · intro opening closing elements ih
    refine Expr.forall_parts_iff.mpr ⟨mono (list _ _) (List.nil_subset _), fun e member => ?_⟩
    obtain ⟨p, inElements, rfl⟩ := List.mem_map.mp member
    have inside := (Items.tokens_inside inElements).subset
    exact grown (ih p inElements) fun token listed => by simp [Phrase.list, inside listed]
  · intro negative range p ih
    have inner := grown ih (List.subset_cons_self
      ⟨.operator (if negative then .minus else .plus), range⟩ p.tokens)
    refine Expr.forall_parts_iff.mpr ⟨mono (unary _ _ _) (List.nil_subset _), ?_⟩
    cases negative <;> simpa [Phrase.signed, Expr.children] using inner
  · intro left op range right first second
    have left' := @grown left (left.operation op range right).tokens first (by simp [Phrase.operation])
    have right' := @grown right (left.operation op range right).tokens second
      fun token listed => by simp [Phrase.operation, listed]
    exact Expr.forall_parts_iff.mpr ⟨mono (binary _ _ _ _) (List.nil_subset _),
      by simpa [Phrase.operation, Expr.children] using ⟨left', right'⟩⟩

theorem parse_derives {t : Text} {tree : Expr} (run : parse t = .ok tree) :
    ∃ tokens p, tokenize t = .ok tokens ∧ Derives .expression p ∧ p.tokens = tokens ∧
      p.Within Parser.maxNesting Parser.maxDepth ∧ p.tree = tree := by
  obtain ⟨tokens, lexed, read⟩ := parse_ok_iff.mp run
  obtain ⟨p, derives, span, within, same⟩ := Parser.whole_ok_iff.mp read
  exact ⟨tokens, p, lexed, derives, span, within, same⟩

theorem parse_liesIn {t : Text} {tree : Expr} (run : parse t = .ok tree) : tree.LiesIn 0 t.length := by
  obtain ⟨_, p, lexed, derives, rfl, _, rfl⟩ := parse_derives run
  exact derives.liesIn 0 t.length (tokenize_ordered lexed)

theorem parse_spans {t : Text} {tree : Expr} (run : parse t = .ok tree) : tree.Spans 0 t.length :=
  (parse_liesIn run).spans

theorem parse_readable {t : Text} {tree : Expr} (run : parse t = .ok tree) :
    ∀ part : Expr, part.PartOf tree → part.Readable := by
  obtain ⟨_, p, _, derives, rfl, within, rfl⟩ := parse_derives run
  exact derives.readable within.literals

end Calculator
