import Mathlib.Data.List.Infix
import Mathlib.Data.String.Basic

/-!
# Splitting texts

A text is split at the occurrences of a separator, from left to right.  `splitFrom` describes the
search on lists, and `String.splitOn` refines it (`splitOn_eq`).

A separator whose last character occurs nowhere else in it cannot overlap another occurrence, and
not the end of a text without it either.  Texts that do not contain such a separator are therefore
recovered from their concatenation, when each of them follows a separator (`splitOn_join`).

## Main definitions

* `splitFrom` : the search; `searchFrom` is the one in a string.

## Main results

* `splitFrom_flatMap` : splitting undoes joining.
* `splitOn_eq`, `splitOn_join` : the same for strings.
-/

namespace XStack

section

variable {α : Type*} [DecidableEq α]

/-- The pieces of a list, the first of which begins with `piece`. -/
def splitFrom (sep piece : List α) : List α → List (List α)
  | [] => [piece]
  | x :: rest =>
    if sep <+: x :: rest then piece :: splitFrom sep [] (rest.drop (sep.length - 1))
    else splitFrom sep (piece ++ [x]) rest
termination_by rest => rest.length
decreasing_by
  · simp only [List.length_drop, List.length_cons]
    omega
  · simp

variable {sep piece rest t u : List α} {c x : α}

@[simp] theorem splitFrom_nil : splitFrom sep piece [] = [piece] := by
  rw [splitFrom]

theorem splitFrom_cons_skip (h : ¬ sep <+: x :: rest) :
    splitFrom sep piece (x :: rest) = splitFrom sep (piece ++ [x]) rest := by
  rw [splitFrom, if_neg h]

theorem splitFrom_append (hsep : sep ≠ []) :
    splitFrom sep piece (sep ++ rest) = piece :: splitFrom sep [] rest := by
  obtain ⟨x, sep', rfl⟩ := List.exists_cons_of_ne_nil hsep
  rw [List.cons_append, splitFrom, if_pos]
  · simp
  · rw [← List.cons_append]
    exact List.prefix_append _ _

theorem splitFrom_of_not_infix (h : ¬ sep <:+: rest) :
    splitFrom sep piece rest = [piece ++ rest] := by
  induction rest generalizing piece with
  | nil => simp
  | cons x rest ih =>
    have hrest : ¬ sep <:+: rest := fun hin => h (List.infix_cons hin)
    rw [splitFrom_cons_skip fun hpre => h hpre.isInfix, ih hrest, List.append_assoc,
      List.singleton_append]

/-! ### Separators that do not overlap -/

omit [DecidableEq α] in
theorem not_prefix_append (hc : c ∉ sep) (hne : t ≠ []) (ht : ¬ sep ++ [c] <+: t) :
    ¬ sep ++ [c] <+: t ++ (sep ++ [c] ++ rest) := by
  intro hpre
  rcases List.prefix_or_prefix_of_prefix hpre (List.prefix_append t _) with hsep | ⟨u, hu⟩
  · exact ht hsep
  -- otherwise it ends in the next separator, and what is there of it ends in `c`
  rw [← hu, List.prefix_append_right_inj, hu] at hpre
  have hlen : u.length < (sep ++ [c]).length := by
    rw [← hu, List.length_append]
    exact Nat.lt_add_of_pos_left (List.length_pos_of_ne_nil hne)
  have hbegin : u <+: sep ++ [c] :=
    List.prefix_of_prefix_length_le hpre (List.prefix_append _ _) hlen.le
  have hsub : u <+: sep := by
    rcases List.prefix_concat_iff.1 hbegin with rfl | hsub
    · exact absurd rfl hlen.ne
    · exact hsub
  rcases u.eq_nil_or_concat' with rfl | ⟨u', c', rfl⟩
  · rw [List.append_nil] at hu
    exact ht (hu ▸ List.prefix_refl _)
  · rw [← List.append_assoc] at hu
    obtain ⟨-, hcc⟩ := List.append_inj' hu rfl
    cases hcc
    exact hc (hsub.subset List.mem_concat_self)

/-- Up to the next separator there is one piece. -/
theorem splitFrom_piece (hc : c ∉ sep) (ht : ¬ sep ++ [c] <:+: t) :
    splitFrom (sep ++ [c]) piece (t ++ (sep ++ [c] ++ rest)) =
      (piece ++ t) :: splitFrom (sep ++ [c]) [] rest := by
  induction t generalizing piece with
  | nil =>
    rw [List.nil_append, splitFrom_append (by simp), List.append_nil]
  | cons x t ih =>
    have hpre : ¬ sep ++ [c] <+: x :: t ++ (sep ++ [c] ++ rest) :=
      not_prefix_append hc (List.cons_ne_nil x t) fun h => ht h.isInfix
    have hrest : ¬ sep ++ [c] <:+: t := fun hin => ht (List.infix_cons hin)
    rw [List.cons_append] at hpre ⊢
    rw [splitFrom_cons_skip hpre, ih hrest, List.append_assoc, List.singleton_append]

/-- **Splitting undoes joining**, for such a separator and lists that do not contain it. -/
theorem splitFrom_flatMap (hc : c ∉ sep) {ts : List (List α)}
    (hts : ∀ t ∈ ts, ¬ sep ++ [c] <:+: t) (ht : ¬ sep ++ [c] <:+: t) :
    splitFrom (sep ++ [c]) piece (t ++ ts.flatMap fun t => sep ++ [c] ++ t) =
      (piece ++ t) :: ts := by
  induction ts generalizing piece t with
  | nil => rw [List.flatMap_nil, List.append_nil, splitFrom_of_not_infix ht]
  | cons t' ts ih =>
    rw [List.forall_mem_cons] at hts
    rw [List.flatMap_cons, List.append_assoc, splitFrom_piece hc ht, ih hts.2 hts.1,
      List.nil_append]

omit [DecidableEq α] in
theorem eq_nil_of_append_eq_cons {v s b : List α} (hx : x ∉ v) (h : v ++ s = x :: b) : v = [] := by
  cases v with
  | nil => rfl
  | cons y v =>
    cases h
    exact absurd List.mem_cons_self hx

omit [DecidableEq α] in
/-- A list that does not contain some element is on the one or on the other side of it. -/
theorem infix_of_not_mem {l a b : List α} (hx : x ∉ l) (h : l <:+: a ++ x :: b) :
    l <:+: a ∨ l <:+: b := by
  obtain ⟨s, t, h⟩ := h
  rw [List.append_assoc] at h
  rcases List.append_eq_append_iff.1 h with ⟨u, rfl, hu⟩ | ⟨u, -, hu⟩
  · -- it begins before the element, and so it ends before it
    rcases List.append_eq_append_iff.1 hu with ⟨v, rfl, -⟩ | ⟨v, rfl, hv⟩
    · exact .inl ⟨s, v, List.append_assoc ..⟩
    · have hnil := eq_nil_of_append_eq_cons (fun hmem => hx (List.mem_append_right u hmem)) hv.symm
      rw [hnil, List.append_nil]
      exact .inl (List.suffix_append s u).isInfix
  · cases u with
    | nil =>
      rw [eq_nil_of_append_eq_cons hx hu.symm]
      exact .inl List.nil_infix
    | cons y u =>
      cases hu
      exact .inr ⟨u, t, List.append_assoc ..⟩

end

/-! ### Strings -/

section

open String (ofList utf8Len)

theorem unoffsetBy_utf8Len (a b : List Char) :
    String.Pos.Raw.unoffsetBy ⟨utf8Len (a ++ b)⟩ ⟨utf8Len b⟩ = ⟨utf8Len a⟩ := by
  simp [String.Pos.Raw.unoffsetBy]

theorem utf8Len_concat (a : List Char) (x : Char) :
    utf8Len a + x.utf8Size = utf8Len (a ++ [x]) := by
  simp

/-- The search in a string: the characters before the current piece are `l`, this piece begins with
`m`, the characters `c` behind it are the beginning of the separator, and `r` and `d` are what is
left of the string and of the separator. -/
def searchFrom (l m c r d : List Char) (acc : List String) : List String :=
  String.splitOnAux (ofList (l ++ m ++ c ++ r)) (ofList (c ++ d)) ⟨utf8Len l⟩
    ⟨utf8Len (l ++ m ++ c)⟩ ⟨utf8Len c⟩ acc

variable {l m c r d : List Char} {x y z : Char} {acc : List String}

theorem searchFrom_nil : searchFrom l m c [] d acc = acc.reverse ++ [ofList (m ++ c)] := by
  have hend : String.Pos.Raw.atEnd (ofList (l ++ m ++ c ++ [])) ⟨utf8Len (l ++ m ++ c)⟩ = true :=
    (String.atEnd_of_valid _ _).2 rfl
  have hextract : String.Pos.Raw.extract (ofList (l ++ m ++ c ++ [])) ⟨utf8Len l⟩
      ⟨utf8Len (l ++ m ++ c)⟩ = ofList (m ++ c) := by
    have h := String.extract_of_valid l (m ++ c) []
    rwa [← List.append_assoc, ← String.utf8Len_append, ← List.append_assoc] at h
  rw [searchFrom, String.splitOnAux, if_pos hend, hextract, List.reverse_cons]

theorem searchFrom_cons : searchFrom l m c (x :: r) (y :: d) acc =
    if x == y then
      if String.Pos.Raw.atEnd (ofList (c ++ y :: d)) ⟨utf8Len (c ++ [y])⟩ then
        String.splitOnAux (ofList (l ++ m ++ c ++ x :: r)) (ofList (c ++ y :: d))
          ⟨utf8Len (l ++ m ++ c ++ [x])⟩ ⟨utf8Len (l ++ m ++ c ++ [x])⟩ 0
          (String.Pos.Raw.extract (ofList (l ++ m ++ c ++ x :: r)) ⟨utf8Len l⟩
            (String.Pos.Raw.unoffsetBy ⟨utf8Len (l ++ m ++ c ++ [x])⟩ ⟨utf8Len (c ++ [y])⟩) :: acc)
      else
        String.splitOnAux (ofList (l ++ m ++ c ++ x :: r)) (ofList (c ++ y :: d)) ⟨utf8Len l⟩
          ⟨utf8Len (l ++ m ++ c ++ [x])⟩ ⟨utf8Len (c ++ [y])⟩ acc
    else
      String.splitOnAux (ofList (l ++ m ++ c ++ x :: r)) (ofList (c ++ y :: d)) ⟨utf8Len l⟩
        (String.Pos.Raw.next (ofList (l ++ m ++ c ++ x :: r)) ⟨utf8Len (l ++ m)⟩) 0 acc := by
  have hend : ¬ String.Pos.Raw.atEnd (ofList (l ++ m ++ c ++ x :: r)) ⟨utf8Len (l ++ m ++ c)⟩ =
      true := fun h => List.cons_ne_nil x r ((String.atEnd_of_valid _ _).1 h)
  rw [searchFrom, String.splitOnAux, if_neg hend, String.get_of_valid (l ++ m ++ c) (x :: r),
    String.get_of_valid c (y :: d), String.next_of_valid (l ++ m ++ c) x r,
    String.next_of_valid c y d, utf8Len_concat, utf8Len_concat, unoffsetBy_utf8Len (l ++ m) c]
  rfl

theorem searchFrom_agree : searchFrom l m c (x :: r) (x :: y :: d) acc =
    searchFrom l m (c ++ [x]) r (y :: d) acc := by
  have hsep : ¬ String.Pos.Raw.atEnd (ofList (c ++ x :: y :: d)) ⟨utf8Len (c ++ [x])⟩ = true := by
    have h := String.atEnd_of_valid (c ++ [x]) (y :: d)
    rw [List.append_assoc, List.singleton_append] at h
    exact fun hend => List.cons_ne_nil y d (h.1 hend)
  rw [searchFrom_cons, if_pos (beq_self_eq_true x), if_neg hsep, searchFrom, ← List.append_assoc,
    List.append_assoc (l ++ m ++ c), List.append_assoc c, List.singleton_append,
    List.singleton_append]

theorem searchFrom_found : searchFrom l m c (x :: r) [x] acc =
    searchFrom (l ++ m ++ c ++ [x]) [] [] r (c ++ [x]) (ofList m :: acc) := by
  have hsep : String.Pos.Raw.atEnd (ofList (c ++ [x])) ⟨utf8Len (c ++ [x])⟩ = true := by
    have h := String.atEnd_of_valid (c ++ [x]) []
    rw [List.append_nil] at h
    exact h.2 rfl
  have hpos := unoffsetBy_utf8Len (l ++ m) (c ++ [x])
  have hextract := String.extract_of_valid l m (c ++ x :: r)
  rw [← String.utf8Len_append, ← hpos, ← List.append_assoc (l ++ m), ← List.append_assoc (l ++ m)]
    at hextract
  rw [searchFrom_cons, if_pos (beq_self_eq_true x), if_pos hsep, hextract, searchFrom]
  simp only [List.append_assoc, List.append_nil, List.nil_append, List.singleton_append]
  rfl

/-- The characters differ: the search goes on behind the first character that was compared. -/
theorem searchFrom_differ (hxy : x ≠ y) {rest : List Char} (hz : c ++ x :: r = z :: rest) :
    searchFrom l m c (x :: r) (y :: d) acc =
      searchFrom l (m ++ [z]) [] rest (c ++ y :: d) acc := by
  have hstring : l ++ m ++ c ++ x :: r = l ++ m ++ z :: rest := by
    rw [List.append_assoc (l ++ m), hz]
  rw [searchFrom_cons, if_neg (by simpa using hxy), hstring, String.next_of_valid, utf8Len_concat,
    searchFrom]
  simp only [List.append_assoc, List.append_nil, List.nil_append, List.singleton_append]
  rfl

/-- **The search in a string** is the one in its characters. -/
theorem searchFrom_eq (l m c r d : List Char) (hd : d ≠ []) (acc : List String) :
    searchFrom l m c r d acc = acc.reverse ++ (splitFrom (c ++ d) m (c ++ r)).map ofList := by
  obtain ⟨y, d, rfl⟩ := List.exists_cons_of_ne_nil hd
  cases r with
  | nil =>
    have hshort : ¬ c ++ y :: d <:+: c ++ [] := by
      intro h
      have hle := h.length_le
      simp at hle
    rw [searchFrom_nil, splitFrom_of_not_infix hshort, List.append_nil]
    rfl
  | cons x r =>
    by_cases hxy : x = y
    · subst hxy
      cases d with
      | nil =>
        have hpieces : splitFrom (c ++ [x]) m (c ++ [x] ++ r) = m :: splitFrom (c ++ [x]) [] r :=
          splitFrom_append (by simp)
        rw [searchFrom_found, searchFrom_eq _ _ _ _ _ (by simp), List.append_cons c x r, hpieces]
        simp [-String.ofList_append]
      | cons y d =>
        rw [searchFrom_agree, searchFrom_eq _ _ _ _ _ (by simp), ← List.append_cons,
          ← List.append_cons]
    · have hnot : ¬ c ++ y :: d <+: c ++ x :: r := by
        rw [List.prefix_append_right_inj, List.cons_prefix_cons]
        exact fun h => hxy h.1.symm
      obtain ⟨z, rest, hz⟩ := List.exists_cons_of_ne_nil (List.append_ne_nil_of_right_ne_nil c
        (List.cons_ne_nil x r))
      have hlt : rest.length < c.length + (r.length + 1) := by
        have hlen := congrArg List.length hz
        simp only [List.length_append, List.length_cons] at hlen
        omega
      rw [searchFrom_differ hxy hz, searchFrom_eq _ _ _ _ _ (by simp), List.nil_append,
        List.nil_append, hz, splitFrom_cons_skip (hz ▸ hnot)]
termination_by ((c ++ r).length, d.length)

variable {s sep : String}

/-- **`String.splitOn`** is this search on the characters. -/
theorem splitOn_eq (hsep : sep ≠ "") :
    s.splitOn sep = (splitFrom sep.toList [] s.toList).map ofList := by
  have hne : sep.toList ≠ [] := mt String.toList_eq_nil_iff.1 hsep
  have hsearch := searchFrom_eq [] [] [] s.toList sep.toList hne []
  rw [String.splitOn, if_neg (by simpa using hsep)]
  simpa [searchFrom] using hsearch

/-- **Texts behind separators** are recovered from their concatenation, if the last character of the
separator occurs only there and no text contains the separator. -/
theorem splitOn_join {begin : List Char} {last : Char} (hsep : sep.toList = begin ++ [last])
    (hlast : last ∉ begin) {ts : List String} (hts : ∀ t ∈ ts, ¬ sep.toList <:+: t.toList) :
    (String.join (ts.map fun t => sep ++ t)).splitOn sep = "" :: ts := by
  have hne : sep ≠ "" := by
    rintro rfl
    simp at hsep
  have hchars : (String.join (ts.map fun t => sep ++ t)).toList =
      [] ++ (ts.map String.toList).flatMap fun t => begin ++ [last] ++ t := by
    rw [String.join_eq, String.toList_ofList, List.map_map, List.nil_append, List.flatMap_map,
      List.flatMap_def, ← hsep]
    refine congrArg List.flatten (List.map_congr_left fun t _ => ?_)
    exact String.toList_append
  have hnone : ∀ t ∈ ts.map String.toList, ¬ begin ++ [last] <:+: t := by
    intro chars hmem
    obtain ⟨t, ht, rfl⟩ := List.mem_map.1 hmem
    rw [← hsep]
    exact hts t ht
  rw [splitOn_eq hne, hchars, hsep, splitFrom_flatMap hlast hnone (by simp), List.map_cons,
    List.map_map]
  simp [Function.comp_def]

end

end XStack
