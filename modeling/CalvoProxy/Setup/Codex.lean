import Mathlib.Data.List.Infix

/-!
# The block in the Codex configuration

`replaceMarkedBlock` of `cmd/setup.go` replaces the block between the first start and the first end
marker, or appends one, so that a marker without its partner, or an end marker in the URL, makes the
next application wrong (`replace_twice_iff`).
-/

namespace CalvoProxy.Codex

open List Option

abbrev Text := List Char

variable {part t w w' x : Text} {i : Nat}

/-- `strings.Index`. -/
def index (part : Text) : Text → Option Nat
  | [] => if part.isEmpty then some 0 else none
  | c :: cs => if part.isPrefixOf (c :: cs) then some 0 else (index part cs).map (· + 1)

def codexBlockStart : Text := "# >>> calvoproxy >>>".toList

def codexBlockEnd : Text := "# <<< calvoproxy <<<".toList

def renderHead : Text :=
  codexBlockStart ++ "\nmodel_provider = \"calvoproxy\"\n\n[model_providers.calvoproxy]\nname = \"CalvoProxy\"\nbase_url = ".toList

def wireAPI : Text := "\nwire_api = \"chat\"\n".toList

def render (baseURL : Text) : Text :=
  renderHead ++ '"' :: (baseURL ++ '/' :: ("v1\"".toList ++ wireAPI ++ codexBlockEnd))

def separated (existing : Text) : Text :=
  if existing ≠ [] ∧ existing.getLast? ≠ some '\n' then existing ++ ['\n'] else existing

def replaceMarkedBlock (existing block : Text) : Text :=
  match index codexBlockStart existing, index codexBlockEnd existing with
  | some start, some stop =>
    if start < stop then
      existing.take start ++ block ++ existing.drop (stop + codexBlockEnd.length)
    else separated existing ++ '\n' :: block ++ ['\n']
  | _, _ => separated existing ++ '\n' :: block ++ ['\n']

/-- There is no marker, or the first start marker stands before the first end marker. -/
def Paired (t : Text) : Prop :=
  index codexBlockStart t = none ∧ index codexBlockEnd t = none ∨
    ∃ i j, index codexBlockStart t = some i ∧ index codexBlockEnd t = some j ∧ i < j

/-! ## First occurrences -/

theorem index_cons_neg {c : Char} (h : ¬part <+: c :: t) :
    index part (c :: t) = (index part t).map (· + 1) :=
  if_neg (mt isPrefixOf_iff_prefix.mp h)

theorem index_cons {c : Char} (h : index part (c :: t) = some i) :
    part <+: c :: t ∧ i = 0 ∨ ¬part <+: c :: t ∧ ∃ j, index part t = some j ∧ i = j + 1 := by
  by_cases hpart : part <+: c :: t
  · rw [index, if_pos <| isPrefixOf_iff_prefix.mpr hpart] at h
    cases h
    exact .inl ⟨hpart, rfl⟩
  · rw [index_cons_neg hpart] at h
    obtain ⟨j, hj, rfl⟩ := map_eq_some_iff.mp h
    exact .inr ⟨hpart, j, hj, rfl⟩

theorem index_nil (h : index part [] = some i) : part = [] := by
  rw [index] at h
  split at h
  · next hempty => exact isEmpty_iff.mp hempty
  · cases h

theorem prefix_drop (h : index part t = some i) : part <+: t.drop i := by
  induction t generalizing i with
  | nil =>
    rw [index_nil h]
    exact nil_prefix
  | cons c cs ih =>
    rcases index_cons h with ⟨hpart, rfl⟩ | ⟨_, j, hj, rfl⟩
    · exact hpart
    · exact ih hj

theorem index_append (h : index part t = some i) (w : Text) : index part (t ++ w) = some i := by
  induction t generalizing i with
  | nil =>
    obtain rfl := index_nil h
    cases h
    cases w <;> rfl
  | cons c cs ih =>
    rcases index_cons h with ⟨hpart, rfl⟩ | ⟨hnot, j, hj, rfl⟩
    · exact if_pos <| isPrefixOf_iff_prefix.mpr <| hpart.trans <| prefix_append _ _
    have hlength := (prefix_drop hj).length_le
    rw [length_drop] at hlength
    rw [cons_append, index_cons_neg, ih hj]
    · rfl
    · intro hpart
      exact hnot (prefix_of_prefix_length_le hpart (prefix_append _ _) (by rw [length_cons]; omega))

theorem index_behind {c : Char} (hc : c ∉ part) (hne : part ≠ []) (h : index part t = none) :
    index part (t ++ c :: w) = (index part w).map (t.length + 1 + ·) := by
  induction t with
  | nil =>
    rw [nil_append, index_cons_neg]
    · simp only [length_nil, Nat.zero_add, Nat.add_comm]
    · intro hpart
      obtain ⟨d, ds, rfl⟩ := exists_cons_of_ne_nil hne
      obtain ⟨rfl, -⟩ := cons_prefix_cons.mp hpart
      exact hc mem_cons_self
  | cons a cs ih =>
    have hnot : ¬part <+: a :: cs := by
      intro hpart
      rw [index, if_pos <| isPrefixOf_iff_prefix.mpr hpart] at h
      cases h
    rw [index_cons_neg hnot, map_eq_none_iff] at h
    rw [cons_append, index_cons_neg, ih h, Option.map_map]
    · refine congrFun (congrArg Option.map (funext fun j => ?_)) _
      simp only [Function.comp_apply, length_cons]
      omega
    · intro hpart
      have hcut : a :: cs ++ [c] <+: a :: (cs ++ c :: w) := ⟨w, by simp⟩
      rcases prefix_or_prefix_of_prefix hpart hcut with hle | hge
      · rcases prefix_concat_iff.mp hle with rfl | hle
        · exact hc (by simp)
        · exact hnot hle
      · exact hc (hge.subset (by simp))

theorem index_ne_none (h : part <:+: t) : index part t ≠ none := by
  obtain ⟨a, c, rfl⟩ := h
  induction a with
  | nil =>
    rw [nil_append]
    cases hpart : part with
    | nil => cases c <;> simp [index]
    | cons d ds => simp [index]
  | cons d a ih =>
    rw [append_assoc, cons_append, index]
    split
    · exact some_ne_none 0
    · rwa [Ne, map_eq_none_iff, ← append_assoc]

theorem index_shift (h : index part (x ++ w) = some i) (hi : x.length ≤ i)
    (hw : w.take part.length = w'.take part.length) :
    index part (x ++ w') = (index part w').map (x.length + ·) := by
  induction x generalizing i with
  | nil => simp
  | cons c x ih =>
    rw [cons_append] at h
    rcases index_cons h with ⟨_, rfl⟩ | ⟨hnot, j, hj, rfl⟩
    · cases hi
    rw [cons_append, index_cons_neg, ih hj (Nat.le_of_succ_le_succ hi), Option.map_map]
    · refine congrFun (congrArg Option.map (funext fun j => ?_)) _
      simp only [Function.comp_apply, length_cons]
      omega
    · -- the first characters are the same in both texts
      rw [prefix_iff_eq_take, ← cons_append, take_append] at hnot ⊢
      rwa [show w'.take (part.length - (c :: x).length) = w.take (part.length - (c :: x).length) by
        rw [← Nat.min_eq_left (Nat.sub_le part.length (c :: x).length), ← take_take, ← hw,
          take_take]]

theorem index_at_start (hne : part ≠ []) (h : part <+: t) : index part t = some 0 := by
  cases t with
  | nil => exact absurd (prefix_nil.mp h) hne
  | cons c cs => exact if_pos <| isPrefixOf_iff_prefix.mpr h

theorem starts_block (u w : Text) : codexBlockStart <+: render u ++ w := by
  simp only [render, renderHead, append_assoc]
  exact prefix_append _ _

/-- The text behind the first end marker of a rendered block. There is some exactly if the URL has
an end marker. -/
theorem render_end (u : Text) : ∃ front rest, render u = front ++ codexBlockEnd ++ rest ∧
    index codexBlockEnd (render u) = some front.length ∧ 0 < front.length ∧
      (rest = [] ↔ index codexBlockEnd u = none) ∧ (rest = [] ∨ codexBlockEnd <:+ rest) := by
  have hhead : index codexBlockEnd renderHead = none := by decide +kernel
  have htail : index codexBlockEnd ("v1\"".toList ++ wireAPI ++ codexBlockEnd) =
      some ("v1\"".toList ++ wireAPI).length := by decide +kernel
  rw [render, index_behind (by decide) (by decide) hhead]
  generalize "v1\"".toList ++ wireAPI = tail at htail ⊢
  generalize renderHead = head
  cases hurl : index codexBlockEnd u with
  | none =>
    rw [index_behind (by decide) (by decide) hurl, htail]
    refine ⟨head ++ '"' :: (u ++ '/' :: tail), [], by simp, ?_, ?_, by simp, .inl rfl⟩
    all_goals
      simp only [map_some, length_append, length_cons, Option.some.injEq]
      omega
  | some k =>
    obtain ⟨after, hafter⟩ := prefix_drop hurl
    have hk : k ≤ u.length := by
      have hle := congrArg List.length hafter
      rw [length_append, length_drop, show codexBlockEnd.length = 20 by decide] at hle
      omega
    rw [index_append hurl]
    refine ⟨head ++ '"' :: u.take k, after ++ '/' :: (tail ++ codexBlockEnd), ?_, ?_, ?_,
      by simp, .inr ⟨after ++ '/' :: tail, by simp⟩⟩
    · conv_lhs => rw [← take_append_drop k u, ← hafter]
      simp
    all_goals
      simp only [map_some, length_append, length_cons, length_take, Option.some.injEq]
      omega

theorem drop_marker (x front rest z : Text) : drop (x.length + front.length + codexBlockEnd.length)
      (x ++ (front ++ codexBlockEnd ++ rest ++ z)) = rest ++ z := by
  rw [show x ++ (front ++ codexBlockEnd ++ rest ++ z) =
    x ++ front ++ codexBlockEnd ++ (rest ++ z) by simp]
  exact drop_left' (by simp only [length_append])

theorem replace_block {u x z b front rest : Text} (hcut : render u = front ++ codexBlockEnd ++ rest)
    (hindex : index codexBlockEnd (render u) = some front.length) (hpos : 0 < front.length)
    (hstart : index codexBlockStart (x ++ (render u ++ z)) =
      (index codexBlockStart (render u ++ z)).map (x.length + ·))
    (hend : index codexBlockEnd (x ++ (render u ++ z)) =
      (index codexBlockEnd (render u ++ z)).map (x.length + ·)) :
    replaceMarkedBlock (x ++ (render u ++ z)) b = x ++ b ++ (rest ++ z) := by
  rw [index_at_start (by decide) (starts_block u z)] at hstart
  rw [index_append hindex] at hend
  simp only [replaceMarkedBlock, hstart, hend, map_some]
  rw [if_pos (by omega), take_left' (by omega), hcut, drop_marker]

theorem index_separated (hnew : '\n' ∉ part) (hne : part ≠ []) (h : index part t = none) (w : Text) :
    index part (separated t ++ ['\n'] ++ w) =
      (index part w).map ((separated t ++ ['\n']).length + ·) := by
  have hnone : index part (separated t) = none := by
    unfold separated
    split
    · rw [index_behind hnew hne h, index, if_neg (by simpa using hne)]
      rfl
    · exact h
  rw [append_assoc, singleton_append, index_behind hnew hne hnone, length_append, length_singleton]

def appended (t b : Text) : Text := separated t ++ ['\n'] ++ (b ++ ['\n'])

theorem separated_eq (t : Text) :
    ∃ newlines, separated t = t ++ newlines ∧ ∀ c ∈ newlines, c = '\n' := by
  unfold separated
  split
  · exact ⟨['\n'], rfl, fun c => mem_singleton.mp⟩
  · exact ⟨[], (append_nil t).symm, fun c hc => absurd hc not_mem_nil⟩

theorem replace_of_paired {u b : Text} (h : Paired t) :
    replaceMarkedBlock (replaceMarkedBlock t (render u)) b = replaceMarkedBlock t b ↔
      index codexBlockEnd u = none := by
  obtain ⟨front, rest, hcut, hindex, hpos, hrest, -⟩ := render_end u
  have hlonger : ∀ x z : Text, x ++ (rest ++ z) = x ++ z ↔ index codexBlockEnd u = none := by
    intro x z
    rw [append_cancel_left_eq, ← hrest]
    exact append_left_eq_self
  rcases h with ⟨hstart, hend⟩ | ⟨i, j, hstart, hend, hlt⟩
  · have happend : ∀ b, replaceMarkedBlock t b = appended t b := by
      intro b
      simp only [replaceMarkedBlock, hstart, appended, append_assoc, cons_append, nil_append]
    rw [happend, happend, appended, replace_block hcut hindex hpos
      (index_separated (by decide) (by decide) hstart _)
      (index_separated (by decide) (by decide) hend _), appended, ← append_assoc _ b ['\n']]
    exact hlonger _ _
  · have hreplace : ∀ b, replaceMarkedBlock t b =
        t.take i ++ (b ++ t.drop (j + codexBlockEnd.length)) := by
      intro b
      simp only [replaceMarkedBlock, hstart, hend, if_pos hlt, append_assoc]
    have hlength : (t.take i).length = i := by
      have := (prefix_drop hstart).length_le
      rw [length_drop] at this
      rw [length_take]
      have : 0 < codexBlockStart.length := by decide
      omega
    have hsame : ∀ w, (t.drop i).take 20 = (render u ++ w).take 20 := fun w =>
      (prefix_iff_eq_take.mp (prefix_drop hstart)).symm.trans (prefix_iff_eq_take.mp (starts_block u w))
    rw [← take_append_drop i t] at hstart hend
    rw [hreplace, hreplace, replace_block hcut hindex hpos
      (index_shift hstart hlength.le (hsame _))
      (index_shift hend (hlength.le.trans hlt.le) (hsame _)), ← append_assoc _ b]
    exact hlonger _ _

theorem replace_of_not_paired {b : Text}
    (h : ∀ i j, index codexBlockStart t = some i → index codexBlockEnd t = some j → ¬i < j) :
    replaceMarkedBlock t b = appended t b := by
  have hshape : separated t ++ '\n' :: b ++ ['\n'] = appended t b := by simp [appended]
  unfold replaceMarkedBlock
  split
  · next i j hi hj => rw [if_neg (h i j hi hj), hshape]
  · exact hshape

theorem lt_length (hne : part ≠ []) (h : index part t = some i) : i < t.length := by
  have hle := (prefix_drop h).length_le
  have hpos := length_pos_iff.mpr hne
  rw [length_drop] at hle
  omega

/-- If `b` can be moved over a text that ends in a newline, and what it leaves ends in an end marker,
that marker is in the text. -/
theorem infix_of_shift {b r s : Text} (h : b ++ r = s ++ ['\n'] ++ b)
    (hr : r = [] ∨ codexBlockEnd <:+ r) : codexBlockEnd <:+: s ++ ['\n'] := by
  have hr : codexBlockEnd <:+ r := hr.resolve_left fun hnil => by
    have hlength := congrArg List.length h
    simp only [hnil, length_append, length_nil, length_singleton] at hlength
    omega
  by_cases hlong : (s ++ ['\n']).length ≤ b.length
  · -- `b` starts with the text, and the same holds of the rest of it
    obtain ⟨b', rfl⟩ := prefix_of_prefix_length_le (prefix_append _ _) (h ▸ prefix_append b r) hlong
    rw [append_assoc, append_cancel_left_eq] at h
    have hless : b'.length < (s ++ ['\n'] ++ b').length := by
      simp only [length_append, length_singleton]
      omega
    exact infix_of_shift h (.inr hr)
  · obtain ⟨c, hc⟩ := prefix_of_prefix_length_le (h ▸ prefix_append b r) (prefix_append _ _)
      (Nat.le_of_not_le hlong)
    rw [← hc, append_assoc, append_cancel_left_eq] at h
    have hb : codexBlockEnd <:+ b := by
      rcases suffix_or_suffix_of_suffix hr (h ▸ suffix_append c b) with hb | ⟨e, he⟩
      · exact hb
      · -- a marker that reaches over `b` has the newline in it
        obtain ⟨r', hr'⟩ := hr
        rw [← he, ← append_assoc, h, append_cancel_right_eq] at hr'
        rcases eq_nil_or_concat e with rfl | ⟨e', x, rfl⟩
        · exact he ▸ suffix_refl b
        · rw [concat_eq_append] at he hr'
          rw [← hr', ← append_assoc, ← append_assoc] at hc
          obtain rfl : x = '\n' := by simpa using (append_inj' hc rfl).2
          exact absurd (he ▸ by simp : '\n' ∈ codexBlockEnd) (by decide)
    rw [← hc]
    exact hb.isInfix.trans (prefix_append b c).isInfix
termination_by b.length

theorem paired_of_replace {u b : Text}
    (h : replaceMarkedBlock (replaceMarkedBlock t (render u)) b = replaceMarkedBlock t b) :
    Paired t := by
  by_contra hnot
  obtain ⟨newlines, hsep, -⟩ := separated_eq t
  have hle : t.length ≤ (separated t).length := by rw [hsep, length_append]; omega
  have hapart : ∀ i j, index codexBlockStart t = some i → index codexBlockEnd t = some j → ¬i < j :=
    fun i j hi hj hlt => hnot (.inr ⟨i, j, hi, hj, hlt⟩)
  have hgrown : ∀ part i, index part t = some i → index part (appended t (render u)) = some i := by
    intro part i hi
    rw [appended, append_assoc, hsep, append_assoc]
    exact index_append hi _
  rw [replace_of_not_paired hapart, replace_of_not_paired hapart] at h
  cases hend : index codexBlockEnd t with
  | none =>
    -- a start marker alone: the second block takes its place, and that of all that follows
    cases hstart : index codexBlockStart t with
    | none => exact hnot (.inl ⟨hstart, hend⟩)
    | some i =>
      obtain ⟨front, rest, hcut, hindex, -, -, hrest⟩ := render_end u
      have hi := lt_length (by decide) hstart
      have hend' := index_separated (by decide) (by decide) hend (render u ++ ['\n'])
      rw [index_append hindex, ← appended] at hend'
      simp only [replaceMarkedBlock, hgrown _ i hstart, hend', map_some] at h
      have hmarker : codexBlockEnd <:+: separated t ++ ['\n'] := by
        rw [if_pos (by simp only [length_append]; omega), hcut] at h
        have htake : ∀ w, (separated t ++ w).take i = t.take i := fun w => by
          rw [hsep, append_assoc, take_append_of_le_length hi.le]
        rw [appended, drop_marker, append_assoc (separated t), htake, appended, hsep] at h
        conv_rhs at h => rw [← take_append_drop i t]
        simp only [append_assoc, append_cancel_left_eq] at h
        rw [← append_assoc b, ← append_assoc ['\n'], ← append_assoc newlines, ← append_assoc (drop i t),
          append_cancel_right_eq] at h
        have hinfix : codexBlockEnd <:+: t.drop i ++ newlines ++ ['\n'] :=
          infix_of_shift (by simpa using h) hrest
        exact hinfix.trans ⟨t.take i, [], by simp [hsep, ← append_assoc]⟩
      have hnone := index_separated (by decide) (by decide) hend []
      rw [append_nil] at hnone
      exact index_ne_none hmarker hnone
  | some j =>
    -- an end marker without a start before it: the second block is appended as well
    have hj := lt_length (by decide) hend
    have hagain : replaceMarkedBlock (appended t (render u)) b =
        appended (appended t (render u)) b := by
      refine replace_of_not_paired fun i j' hi hj' => ?_
      cases (hgrown _ j hend).symm.trans hj'
      cases hstart : index codexBlockStart t with
      | some i' =>
        cases (hgrown _ i' hstart).symm.trans hi
        exact hapart i j hstart hend
      | none =>
        rw [appended, index_separated (by decide) (by decide) hstart,
          index_at_start (by decide) (starts_block u _)] at hi
        cases hi
        simp only [length_append, length_singleton]
        omega
    obtain ⟨newlines', hsep', -⟩ := separated_eq (appended t (render u))
    have hlength := congrArg List.length (hagain.symm.trans h)
    rw [appended, hsep', appended, appended] at hlength
    simp only [length_append, length_singleton] at hlength
    omega

/-- What is outside the block is kept, and only the block and newlines are added. -/
inductive Framed (t b : Text) : Text → Prop
  | replaced (before region after : Text) (ht : t = before ++ region ++ after)
      (hstart : codexBlockStart <+: region) (hend : codexBlockEnd <:+ region) :
      Framed t b (before ++ b ++ after)
  | appended (newlines : Text) (h : ∀ c ∈ newlines, c = '\n') :
      Framed t b (t ++ newlines ++ b ++ ['\n'])

theorem replace_framed (t b : Text) : Framed t b (replaceMarkedBlock t b) := by
  by_cases h : ∃ i j, index codexBlockStart t = some i ∧ index codexBlockEnd t = some j ∧ i < j
  · obtain ⟨i, j, hi, hj, hlt⟩ := h
    simp only [replaceMarkedBlock, hi, hj, if_pos hlt]
    obtain ⟨rest, hrest⟩ := prefix_drop hj
    have hcut : t.drop i = (t.drop i).take (j - i) ++ codexBlockEnd ++ rest := by
      conv_lhs => rw [← take_append_drop (j - i) (t.drop i)]
      rw [drop_drop, Nat.add_sub_cancel' hlt.le, append_assoc, hrest]
    have hafter : t.drop (j + codexBlockEnd.length) = rest := by
      rw [← drop_drop, ← hrest, drop_left]
    rw [hafter]
    refine .replaced _ ((t.drop i).take (j - i) ++ codexBlockEnd) rest ?_ ?_ (suffix_append _ _)
    · rw [append_assoc, ← hcut, take_append_drop]
    · refine prefix_of_prefix_length_le (prefix_drop hi) ⟨rest, hcut.symm⟩ ?_
      rw [length_append, show codexBlockStart.length = codexBlockEnd.length by decide]
      exact Nat.le_add_left _ _
  · obtain ⟨newlines, hsep, hnewlines⟩ := separated_eq t
    rw [replace_of_not_paired fun i j hi hj hlt => h ⟨i, j, hi, hj, hlt⟩, appended, hsep,
      ← append_assoc, append_assoc t]
    refine .appended _ fun c hc => ?_
    rcases mem_append.mp hc with hc | hc
    · exact hnewlines c hc
    · exact mem_singleton.mp hc

/-- A second block takes the place of the first exactly if the markers of the text are paired and
the URL in the first has no end marker. What is outside the block is kept in any case. -/
theorem replace_twice_iff (t u b : Text) :
    (replaceMarkedBlock (replaceMarkedBlock t (render u)) b = replaceMarkedBlock t b ↔
      Paired t ∧ index codexBlockEnd u = none) ∧ Framed t b (replaceMarkedBlock t b) := by
  refine ⟨⟨fun h => ?_, fun ⟨hpaired, hurl⟩ => (replace_of_paired hpaired).mpr hurl⟩,
    replace_framed t b⟩
  have hpaired := paired_of_replace h
  exact ⟨hpaired, (replace_of_paired hpaired).mp h⟩

/-- A block that has lost its end: what follows it goes as well. -/
theorem stray_marker_swallows : replaceMarkedBlock (replaceMarkedBlock
      (codexBlockStart ++ "\nmodel = \"o3\"".toList) (render [])) (render []) ≠
    replaceMarkedBlock (codexBlockStart ++ "\nmodel = \"o3\"".toList) (render []) := by
  decide +kernel

end CalvoProxy.Codex
