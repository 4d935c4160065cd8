import Mathlib.Data.List.Lex
import EntityGraph.Files.Path

/-!
# The order of paths

Texts are compared code point by code point, and a code point is told by its code, so the order of
lists of texts is the lexicographic one of their codes: it is total, and two lists that precede each
other are the same.

What a path is ordered by is its root and its names in one list, so two paths can precede each other
and yet differ: the name `/` in the working directory would stand where the root does. No name that
a path is read with holds a slash, and no name in a directory does; between such paths the order is
one of the paths themselves.
-/

namespace EntityGraph

/-! ## Texts -/

theorem CodePoint.code_injective : Function.Injective code := by
  -- The codes of the halves are those that no character has.
  have hapart (c : Char) (offset : Fin 0x800) : (char c).code ≠ (half offset).code := by
    have hvalid := c.valid
    have hlt := offset.isLt
    simp only [code, firstHalf, UInt32.isValidChar, Nat.isValidChar, Char.toNat] at hvalid ⊢
    omega
  intro a b h
  cases a with
  | char c =>
    cases b with
    | char d => exact congrArg char (Char.ext (UInt32.toNat.inj h))
    | half offset => exact absurd h (hapart c offset)
  | half offset =>
    cases b with
    | char d => exact absurd h.symm (hapart d offset)
    | half offset' => exact congrArg half (Fin.ext (Nat.add_left_cancel h))

namespace Text

/-- What a text is compared by. -/
def codes (t : Text) : List Nat := t.map CodePoint.code

theorem codes_injective : Function.Injective codes :=
  List.map_injective_iff.mpr CodePoint.code_injective

theorem lt_iff {a b : Text} : a < b ↔ a.codes < b.codes := by
  induction a generalizing b with
  | nil => cases b <;> simp [codes]
  | cons x a ih =>
    cases b with
    | nil => simp [codes]
    | cons y b =>
      simp only [codes, List.map_cons, List.cons_lt_cons_iff, CodePoint.code_injective.eq_iff]
      rw [ih]
      rfl

theorem listLe_iff {as bs : List Text} : listLe as bs = true ↔ as.map codes ≤ bs.map codes := by
  induction as generalizing bs with
  | nil => exact ⟨fun _ ↦ le_of_not_gt (List.not_lt_nil _), fun _ ↦ rfl⟩
  | cons a as ih =>
    cases bs with
    | nil => simp [listLe]
    | cons b bs =>
      simp only [listLe, Bool.or_eq_true, Bool.and_eq_true, decide_eq_true_eq, beq_iff_eq, ih,
        lt_iff, List.map_cons, le_iff_lt_or_eq, List.cons_lt_cons_iff, List.cons.injEq,
        codes_injective.eq_iff, and_or_left, or_assoc]

theorem notMem_of_mem_partsBetween {α : Type} [DecidableEq α] {mark : α} {xs part : List α}
    (h : part ∈ partsBetween mark xs) : mark ∉ part := by
  induction xs generalizing part with
  | nil => simp_all [partsBetween]
  | cons x rest ih =>
    rw [partsBetween] at h
    split at h
    next => exact absurd h List.not_mem_nil
    next first parts hparts =>
      rw [hparts] at ih
      split at h
      next =>
        obtain rfl | h := List.mem_cons.mp h
        · exact List.not_mem_nil
        · exact ih h
      next hx =>
        obtain rfl | h := List.mem_cons.mp h
        · rw [List.mem_cons, not_or]
          exact ⟨Ne.symm hx, ih List.mem_cons_self⟩
        · exact ih (List.mem_cons_of_mem _ h)

end Text

/-! ## Paths -/

namespace Files.Path

/-- Whether no name of a path holds a slash. -/
def HasPlainNames (p : Path) : Prop := ∀ name ∈ p.parts, .char '/' ∉ name

theorem hasPlainNames_ofText (t : Text) : (ofText t).HasPlainNames := by
  intro name hname
  exact Text.notMem_of_mem_partsBetween (List.mem_of_mem_filter hname)

theorem HasPlainNames.child {p : Path} {name : Text} (hp : p.HasPlainNames)
    (hname : .char '/' ∉ name) : (p.child name).HasPlainNames :=
  List.forall_mem_append.mpr ⟨hp, List.forall_mem_singleton.mpr hname⟩

theorem slash_mem_text {r : Root} (h : r ≠ .workingDirectory) : .char '/' ∈ r.text := by
  cases r with
  | workingDirectory => exact absurd rfl h
  | top => decide
  | other => decide

/-- A path is told by what it is ordered by. -/
theorem eq_of_orderKey_eq {p q : Path} (hp : p.HasPlainNames) (hq : q.HasPlainNames)
    (h : p.orderKey = q.orderKey) : p = q := by
  obtain ⟨pr, ps⟩ := p
  obtain ⟨qr, qs⟩ := q
  simp only [orderKey] at h
  -- The text of a root holds a slash, so it is none of the names.
  split at h <;> split at h
  next hpr hqr => simp_all
  next hqr =>
    subst h
    exact absurd (slash_mem_text hqr) (hp _ List.mem_cons_self)
  next hpr _ =>
    subst h
    exact absurd (slash_mem_text hpr) (hq _ List.mem_cons_self)
  next hpr hqr =>
    obtain ⟨htext, rfl⟩ := List.cons.inj h
    cases pr <;> cases qr <;> simp_all [Root.text]

theorem le_iff {p q : Path} :
    p.le q = true ↔ p.orderKey.map Text.codes ≤ q.orderKey.map Text.codes :=
  Text.listLe_iff

theorem le_total (p q : Path) : (p.le q || q.le p) = true := by
  rw [Bool.or_eq_true, le_iff, le_iff]
  exact LinearOrder.le_total _ _

theorem le_trans {p q r : Path} (hpq : p.le q = true) (hqr : q.le r = true) : p.le r = true :=
  le_iff.mpr ((le_iff.mp hpq).trans (le_iff.mp hqr))

theorem eq_of_le_of_le {p q : Path} (hp : p.HasPlainNames) (hq : q.HasPlainNames)
    (hpq : p.le q = true) (hqp : q.le p = true) : p = q :=
  eq_of_orderKey_eq hp hq (List.map_injective_iff.mpr Text.codes_injective
    (le_antisymm (le_iff.mp hpq) (le_iff.mp hqp)))

end Files.Path

end EntityGraph
