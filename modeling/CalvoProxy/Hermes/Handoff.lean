import Mathlib.Algebra.Order.BigOperators.Group.List
import Mathlib.Algebra.Order.Group.Nat
import Mathlib.Data.Bool.AllAny
import CalvoProxy.Hermes.Reading

/-!
# What a handoff keeps

The summary of `canonicalize_native_summary` is read back by the same `_sections`. It reads back as
the six fields exactly if no source begins with an indented heading and none but the last ends with
a line `##` (`handoff_faithful_iff`).
-/

namespace CalvoProxy.Summary

open Cutting List

variable {c : Char} {key y cs : Text} {field next part : String × Text} {name : String}
  {fs rest : List (String × Text)} {names : List String}

/-- The last line is `##`. -/
def BareEnd (text : Text) : Prop := text = ['#', '#'] ∨ ['\n', '#', '#'] <:+ text

instance (text : Text) : Decidable (BareEnd text) := inferInstanceAs (Decidable (_ ∨ _))

def Plain (text : Text) : Prop := heading text = none ∧ ¬BareEnd text

instance (text : Text) : Decidable (Plain text) := inferInstanceAs (Decidable (_ ∧ _))

/-- The text of a section: no heading starts in it after its first character. -/
structure Source (text : Text) : Prop where
  trimmed : Trimmed isSpace text
  ne : text ≠ []
  quiet : ∃ y, Closing y ∧ ∀ c cs, text = c :: cs → Quiet headingRe (some c) cs y

section Sources

variable {text x : Text}

theorem Source.ended (h : Source text) : Ended text := ⟨h.ne, h.trimmed.last⟩

theorem strip_trimmed (h : Trimmed isSpace text) : strip text = text := by
  have htrim := @trim_append _ isSpace text h [] [] rfl rfl
  rwa [nil_append, append_nil] at htrim

theorem source_of_between {raw : Text} (h : Between headingRe raw) (hne : strip raw ≠ []) :
    Source (strip raw) := by
  refine ⟨trim_trimmed isSpace raw, hne, ?_⟩
  obtain ⟨prev, t, hquiet, ht⟩ := h
  obtain ⟨before, after, hraw, -, hafter⟩ := exists_trim isSpace raw
  have hraw : raw = before ++ (strip raw ++ after) := hraw
  rw [hraw, quiet_append, quiet_append] at hquiet
  refine ⟨after ++ t, ?_, fun c cs htext => ?_⟩
  · rcases ht with rfl | hmatch
    · exact Closing.blank closing_nil hafter
    have hlast : raw.getLast? = some '\n' := by
      have hne : raw ≠ [] := by
        rintro rfl
        exact hne rfl
      rw [lastOr_eq_getLast? prev hne, List.getLast?_eq_some_getLast hne] at hmatch
      rw [List.getLast?_eq_some_getLast hne]
      simp only [headingRe] at hmatch
      split at hmatch
      · next hc => rw [hc]
      · cases hmatch
    obtain rfl | ⟨init, last, rfl⟩ := eq_nil_or_concat' after
    · rw [hraw, append_nil, List.getLast?_append_of_ne_nil _ hne] at hlast
      cases (strip_ended hne).last _ hlast
    · rw [hraw, ← append_assoc, ← append_assoc, List.getLast?_concat] at hlast
      cases hlast
      rw [all_append, Bool.and_eq_true] at hafter
      rw [append_assoc]
      exact Closing.blank (closing_newline t) hafter.1
  · have htail := hquiet.2.1
    rw [htext] at htail
    exact htail.2

structure Follows (x : Text) : Prop where
  closing : Closing x
  bare : heading ('#' :: '#' :: x) ≠ none

/-- What follows a text matters only if the text is `##`. -/
theorem heading_closing_iff (h : Ended text) (hx : Closing x) : heading (text ++ x) = none ↔
      heading text = none ∧ (text = ['#', '#'] → heading ('#' :: '#' :: x) = none) := by
  by_cases hbare : text = ['#', '#']
  · subst hbare
    exact ⟨fun hnone => ⟨rfl, fun _ => hnone⟩, fun hplain => hplain.2 rfl⟩
  · have hsame := heading_isSome_congr h hbare hx closing_nil
    rw [append_nil] at hsame
    rw [← Option.not_isSome_iff_eq_none, ← Option.not_isSome_iff_eq_none, hsame]
    exact (and_iff_left fun heq => absurd heq hbare).symm

theorem quiet_tail_iff (hquiet : Quiet headingRe (some c) cs y)
    (hcs : Ended (c :: cs)) (hx : Closing x) (hy : Closing y) : Quiet headingRe (some c) cs x ↔
      (['\n', '#', '#'] <:+ c :: cs → heading ('#' :: '#' :: x) = none) := by
  induction cs generalizing c with
  | nil =>
    refine ⟨fun _ hsuffix => ?_, fun _ => trivial⟩
    exact absurd hsuffix.length_le (by simp)
  | cons d cs ih =>
    have hended := hcs.tail (cons_ne_nil d cs)
    have hhere : headingRe (some c) (d :: (cs ++ x)) = none ↔
        (['\n', '#', '#'] = c :: d :: cs → heading ('#' :: '#' :: x) = none) := by
      by_cases hc : c = '\n'
      · subst hc
        have hnone := ((heading_closing_iff hended hy).mp hquiet.1).1
        have hiff := heading_closing_iff hended hx
        rw [cons_append] at hiff
        simp only [headingRe, if_true, List.cons.injEq, true_and, hiff, hnone, eq_comm]
      · simp [headingRe, hc, Ne.symm hc]
    rw [Quiet, hhere, ih hquiet.2 hended, @suffix_cons_iff _ _ c (d :: cs), or_imp]

theorem Source.quiet_closing_iff (h : Source text) (hx : Closing x) :
    Quiet headingRe (some '\n') text x ↔
      heading text = none ∧ (BareEnd text → heading ('#' :: '#' :: x) = none) := by
  obtain ⟨y, hy, hquiet⟩ := h.quiet
  obtain ⟨c, cs, rfl⟩ := exists_cons_of_ne_nil h.ne
  have hfirst := heading_closing_iff h.ended hx
  rw [Quiet, quiet_tail_iff (hquiet c cs rfl) h.ended hx hy]
  simp only [headingRe, if_true]
  rw [← cons_append, hfirst, BareEnd, or_imp, and_assoc]

theorem Source.quiet_iff (h : Source text) (hx : Follows x) :
    Quiet headingRe (some '\n') text x ↔ Plain text :=
  (h.quiet_closing_iff hx.closing).trans
    (and_congr_right fun _ => imp_congr_right fun _ => iff_of_false hx.bare id)

theorem Source.quiet_last_iff (h : Source text) :
    Quiet headingRe (some '\n') text [] ↔ heading text = none :=
  (h.quiet_closing_iff closing_nil).trans (and_iff_left fun _ => rfl)

theorem quiet_unhashed {prev : Option Char} (h : '#' ∉ cs) (x : Text) :
    Quiet headingRe prev cs x := by
  induction cs generalizing prev with
  | nil => trivial
  | cons c cs ih =>
    obtain ⟨hc, hcs⟩ := ne_and_not_mem_of_not_mem_cons h
    exact ⟨headingRe_cons_ne (Ne.symm hc) prev _, ih hcs⟩

def label (name : String) : Text := '#' :: '#' :: '#' :: ' ' :: name.toList

theorem labeled_eq (name : String) (value : Text) :
    labeled name value = label name ++ '\n' :: value := rfl

theorem quiet_line {d : Char} (hd : d ≠ '\n') (h : ∀ c ∈ cs, c ≠ '\n') (x : Text) :
    Quiet headingRe (some d) (cs ++ ['\n']) x := by
  induction cs generalizing d with
  | nil => exact ⟨headingRe_cons_ne (by decide) _ _, trivial⟩
  | cons c cs ih =>
    obtain ⟨hc, hcs⟩ := forall_mem_cons.mp h
    exact ⟨if_neg hd, ih hc hcs⟩

theorem quiet_labeled_iff (h : Line (label name)) (value x : Text) :
    Quiet headingRe (some '\n') (labeled name value) x ↔ Quiet headingRe (some '\n') value x := by
  have hlabel : Quiet headingRe (some '\n') (label name ++ ['\n']) (value ++ x) := by
    refine ⟨?_, quiet_line (by decide) (fun c hc => ?_) _⟩
    · show heading ('#' :: '#' :: '#' :: (' ' :: name.toList ++ ['\n'] ++ (value ++ x))) = none
      rw [heading_hashes, blanks_cons_ne (by decide)]
      rfl
    · exact (h.unbroken c (mem_cons_of_mem '#' hc)).2
  have hlast : lastOr (some '\n') (label name ++ ['\n']) = some '\n' := by
    rw [lastOr_append]
    rfl
  rw [labeled_eq, ← singleton_append, ← append_assoc, quiet_append, hlast]
  exact ⟨And.right, And.intro hlabel⟩

theorem follows_line {line : Text} (h : Line line) (hc : isSpace c = false) (x : Text) :
    Follows ('\n' :: '\n' :: (line ++ '\n' :: c :: x)) where
  closing := closing_newline _
  bare := by
    rw [heading_bare h hc]
    exact Option.some_ne_none _

theorem follows_follow (h : Writable field) : Follows (follow (field :: rest)) := by
  obtain ⟨c, text, htext, hc⟩ := strip_cons h.text
  rw [follow, block_append, htext, cons_append]
  exact follows_line h.swallowed_line hc _

/-! ## Joined parts -/

/-- `_join_labeled`, of the parts with their labels. -/
def joined (parts : List (String × Text)) : Text :=
  List.intercalate ['\n', '\n'] (parts.map fun part => labeled part.1 part.2)

structure Part (part : String × Text) : Prop where
  line : Line (label part.1)
  source : Source part.2

theorem joined_single (part : String × Text) : joined [part] = labeled part.1 part.2 := by
  rw [joined, map_singleton, intercalate_singleton]

theorem joined_cons (part next : String × Text) (parts : List (String × Text)) :
    joined (part :: next :: parts) =
      labeled part.1 part.2 ++ (['\n', '\n'] ++ joined (next :: parts)) := by
  rw [joined, map_cons, map_cons, intercalate_cons_cons, append_assoc]
  rfl

theorem joined_append (h : Part part) (parts : List (String × Text))
    (x : Text) : ∃ c rest, isSpace c = false ∧
      joined (part :: parts) ++ x = label part.1 ++ '\n' :: c :: rest := by
  obtain ⟨c, cs, htext⟩ := exists_cons_of_ne_nil h.source.ne
  have hc := h.source.trimmed.head c (by rw [htext]; rfl)
  cases parts with
  | nil => exact ⟨c, cs ++ x, hc, by rw [joined_single, labeled_eq, htext]; simp⟩
  | cons next parts =>
    refine ⟨c, cs ++ (['\n', '\n'] ++ joined (next :: parts)) ++ x, hc, ?_⟩
    rw [joined_cons, labeled_eq, htext]
    simp

theorem joined_quiet_iff {parts : List (String × Text)} (hne : parts ≠ [])
    (h : ∀ part ∈ parts, Part part) (hx : Follows x) :
    Quiet headingRe (some '\n') (joined parts) x ↔ ∀ part ∈ parts, Plain part.2 := by
  induction parts with
  | nil => exact absurd rfl hne
  | cons part parts ih =>
    obtain ⟨hpart, hparts⟩ := forall_mem_cons.mp h
    rw [forall_mem_cons]
    cases parts with
    | nil =>
      rw [joined_single, quiet_labeled_iff hpart.line, hpart.source.quiet_iff hx]
      exact (and_iff_left fun p hp => absurd hp not_mem_nil).symm
    | cons next parts =>
      obtain ⟨c, rest, hc, hjoined⟩ := joined_append (hparts next mem_cons_self) parts x
      have hnext : Follows (['\n', '\n'] ++ joined (next :: parts) ++ x) := by
        rw [append_assoc, hjoined]
        exact follows_line (hparts next mem_cons_self).line hc rest
      have hgap : Quiet headingRe (lastOr (some '\n') (labeled part.1 part.2)) ['\n', '\n']
          (joined (next :: parts) ++ x) :=
        quiet_unhashed (by decide) _
      have hlast : ∀ prev, lastOr prev ['\n', '\n'] = some '\n' := fun _ => rfl
      rw [joined_cons, quiet_append, quiet_append, quiet_labeled_iff hpart.line,
        hpart.source.quiet_iff hnext, hlast, ih (cons_ne_nil next parts) hparts]
      exact and_congr_right fun _ => and_iff_right hgap

theorem joined_trimmed {parts : List (String × Text)} (hne : parts ≠ [])
    (h : ∀ part ∈ parts, Part part) : joined parts ≠ [] ∧ Trimmed isSpace (joined parts) := by
  induction parts with
  | nil => exact absurd rfl hne
  | cons part parts ih =>
    obtain ⟨hpart, hparts⟩ := forall_mem_cons.mp h
    obtain ⟨c, rest, -, hjoined⟩ := joined_append hpart parts []
    rw [append_nil] at hjoined
    refine ⟨by rw [hjoined]; exact cons_ne_nil _ _, ?_, ?_⟩
    · intro d hd
      rw [hjoined] at hd
      exact hpart.line.head d hd
    · cases parts with
      | nil =>
        rw [joined_single, labeled_eq, ← singleton_append, ← append_assoc,
          List.getLast?_append_of_ne_nil _ hpart.source.ne]
        exact hpart.source.trimmed.last
      | cons next parts =>
        obtain ⟨hnext, htrimmed⟩ := ih (cons_ne_nil next parts) hparts
        rw [joined_cons, ← append_assoc, List.getLast?_append_of_ne_nil _ hnext]
        exact htrimmed.last

end Sources

/-! ## The fields of a native summary -/

section Native

variable {f : CaseFold} {native : Text}

theorem source_of_lookup {text : Text} (h : (sections f native).lookup key = some text) :
    Source text := by
  rcases mem_foldl_addSection (lookup_mem h) with hnil | ⟨e, he, hentry, hne⟩
  · cases hnil
  · cases hentry
    exact source_of_between (cut_snd_between headingRe 0 none native e he) hne

theorem first_cons (d : Dict) (name : String) (names : List String) : first f d (name :: names) =
      if strip ((d.lookup (f.fold name.toList)).getD []) ≠ [] then
        strip ((d.lookup (f.fold name.toList)).getD [])
      else first f d names := by
  unfold first
  rw [map_cons, List.find?_cons]
  split
  · next h => rw [if_pos (of_decide_eq_true h)]; rfl
  · next h => rw [if_neg (of_decide_eq_false h)]

theorem first_single (name : String) : first f (sections f native) [name] =
      ((sections f native).lookup (f.fold name.toList)).getD [] := by
  rw [first_cons]
  cases hlookup : (sections f native).lookup (f.fold name.toList) with
  | none => rfl
  | some text =>
    have hsource := source_of_lookup hlookup
    rw [Option.getD_some, strip_trimmed hsource.trimmed, if_pos hsource.ne]

theorem first_source (h : first f (sections f native) names ≠ []) :
    Source (first f (sections f native) names) := by
  induction names with
  | nil => exact absurd rfl h
  | cons name names ih =>
    rw [first_cons] at h ⊢
    cases hlookup : (sections f native).lookup (f.fold name.toList) with
    | none =>
      rw [hlookup] at h
      exact ih h
    | some text =>
      have hsource := source_of_lookup hlookup
      rw [Option.getD_some, strip_trimmed hsource.trimmed, if_pos hsource.ne]
      exact hsource

def parts (f : CaseFold) (d : Dict) (names : List String) : List (String × Text) :=
  names.filterMap fun name =>
    let value := first f d [name]
    if value ≠ [] then some (name, value) else none

theorem joinLabeled_eq (d : Dict) (names : List String) :
    joinLabeled f d names = joined (parts f d names) := by
  unfold joinLabeled joined parts
  rw [map_filterMap]
  congr 2
  funext name
  dsimp only
  split <;> rfl

theorem mem_parts : part ∈ parts f (sections f native) names ↔
      part.1 ∈ names ∧ (sections f native).lookup (f.fold part.1.toList) = some part.2 := by
  have hvalue : ∀ name, (if first f (sections f native) [name] ≠ [] then
      some (name, first f (sections f native) [name]) else none) = some part ↔
      name = part.1 ∧ (sections f native).lookup (f.fold name.toList) = some part.2 := by
    intro name
    rw [first_single]
    cases hlookup : (sections f native).lookup (f.fold name.toList) with
    | none => simp
    | some text =>
      rw [Option.getD_some, if_pos (source_of_lookup hlookup).ne, Option.some_inj,
        Option.some_inj, Prod.ext_iff]
  unfold parts
  rw [mem_filterMap]
  simp only [hvalue]
  exact ⟨fun ⟨name, hmem, hname, hlookup⟩ => ⟨hname ▸ hmem, hname ▸ hlookup⟩,
    fun ⟨hmem, hlookup⟩ => ⟨part.1, hmem, rfl, hlookup⟩⟩

/-! ## Plain sources -/

def PlainIn (f : CaseFold) (native : Text) (names : List String) : Prop :=
  ∀ name ∈ names, ∀ text ∈ (sections f native).lookup (f.fold name.toList), Plain text

instance (f : CaseFold) (native : Text) (names : List String) :
    Decidable (PlainIn f native names) :=
  inferInstanceAs (Decidable (∀ name ∈ names, ∀ text ∈ List.lookup _ _, Plain text))

theorem calm_first_iff {source : String} (hne : first f (sections f native) [source] ≠ [])
    (hnext : Writable next) :
    Calm (name, first f (sections f native) [source]) (next :: rest) ↔
      PlainIn f native [source] := by
  have hsource := first_source hne
  rw [Calm, strip_trimmed hsource.trimmed, hsource.quiet_iff (follows_follow hnext), PlainIn,
    forall_mem_singleton, first_single]
  rw [first_single] at hne
  cases hlookup : (sections f native).lookup (f.fold source.toList) with
  | none =>
    rw [hlookup] at hne
    exact absurd rfl hne
  | some text => simp

section Joined

variable (hne : joinLabeled f (sections f native) names ≠ [])
  (hlabels : ∀ name ∈ names, Line (label name))
include hne hlabels

theorem joinLabeled_parts : parts f (sections f native) names ≠ [] ∧
      ∀ part ∈ parts f (sections f native) names, Part part := by
  constructor
  · intro hnil
    rw [joinLabeled_eq, hnil] at hne
    exact hne rfl
  · intro part hpart
    obtain ⟨hname, hlookup⟩ := mem_parts.mp hpart
    exact ⟨hlabels part.1 hname, source_of_lookup hlookup⟩

theorem joinLabeled_strip :
    strip (joinLabeled f (sections f native) names) = joinLabeled f (sections f native) names := by
  obtain ⟨hsome, hparts⟩ := joinLabeled_parts hne hlabels
  rw [joinLabeled_eq]
  exact strip_trimmed (joined_trimmed hsome hparts).2

theorem calm_joined_iff (hnext : Writable next) :
    Calm (name, joinLabeled f (sections f native) names) (next :: rest) ↔
      PlainIn f native names := by
  obtain ⟨hsome, hparts⟩ := joinLabeled_parts hne hlabels
  rw [Calm, joinLabeled_strip hne hlabels, joinLabeled_eq,
    joined_quiet_iff hsome hparts (follows_follow hnext)]
  constructor
  · exact fun hplain name hname text hlookup =>
      hplain (name, text) (mem_parts.mpr ⟨hname, hlookup⟩)
  · exact fun hplain part hpart =>
      hplain part.1 (mem_parts.mp hpart).1 part.2 (mem_parts.mp hpart).2

end Joined

theorem calm_last_iff (hne : first f (sections f native) names ≠ []) :
    Calm (name, first f (sections f native) names) [] ↔
      heading (first f (sections f native) names) = none := by
  have hsource := first_source hne
  rw [Calm, strip_trimmed hsource.trimmed]
  exact hsource.quiet_last_iff

/-- No section that is used begins with a heading, and only that of the next action ends with a line
`##`. -/
def PlainSources (f : CaseFold) (native : Text) : Prop :=
  PlainIn f native ["Goal"] ∧ PlainIn f native progressSources ∧
    PlainIn f native constraintSources ∧ PlainIn f native ["Relevant Files"] ∧
    PlainIn f native ["Blocked"] ∧
    heading (first f (sections f native) nextActionSources) = none

instance (f : CaseFold) (native : Text) : Decidable (PlainSources f native) :=
  inferInstanceAs (Decidable (_ ∧ _ ∧ _ ∧ _ ∧ _ ∧ _))

theorem fields_names (d : Dict) : (fields f d).map Prod.fst = requiredFields := rfl

theorem requiredFields_line : ∀ name ∈ requiredFields, Line name.toList := by decide

theorem fields_writable (h : ∀ field ∈ fields f (sections f native), strip field.2 ≠ []) :
    ∀ field ∈ fields f (sections f native), Writable field := fun field hfield =>
  ⟨requiredFields_line field.1 (fields_names _ ▸ mem_map_of_mem hfield), h field hfield⟩

theorem ne_nil_of_strip (h : strip cs ≠ []) : cs ≠ [] := by
  rintro rfl
  exact h rfl

theorem allCalm_fields_iff (h : ∀ field ∈ fields f (sections f native), strip field.2 ≠ []) :
    AllCalm (fields f (sections f native)) ↔ PlainSources f native := by
  have hwritable := fields_writable h
  simp only [fields, forall_mem_cons] at h hwritable
  obtain ⟨ho, hp, hc, hf, hb, hn, -⟩ := h
  obtain ⟨-, wp, wc, wf, wb, wn, -⟩ := hwritable
  simp only [fields, AllCalm, PlainSources, and_true]
  rw [calm_first_iff (ne_nil_of_strip ho) wp, calm_joined_iff (ne_nil_of_strip hp) (by decide) wc,
    calm_joined_iff (ne_nil_of_strip hc) (by decide) wf,
    calm_first_iff (ne_nil_of_strip hf) wb, calm_first_iff (ne_nil_of_strip hb) wn,
    calm_last_iff (ne_nil_of_strip hn)]

theorem fields_strip (h : ∀ field ∈ fields f (sections f native), strip field.2 ≠ []) :
    ∀ field ∈ fields f (sections f native), strip field.2 = field.2 := by
  have hfirst : ∀ {names : List String}, strip (first f (sections f native) names) ≠ [] →
      strip (first f (sections f native) names) = first f (sections f native) names := fun hne =>
    strip_trimmed (first_source (ne_nil_of_strip hne)).trimmed
  simp only [fields, forall_mem_cons] at h ⊢
  obtain ⟨ho, hp, hc, hf, hb, hn, -⟩ := h
  exact ⟨hfirst ho, joinLabeled_strip (ne_nil_of_strip hp) (by decide),
    joinLabeled_strip (ne_nil_of_strip hc) (by decide), hfirst hf, hfirst hb, hfirst hn,
    fun field hfield => absurd hfield not_mem_nil⟩

end Native

/-! ## The round trip -/

section RoundTrip

variable {f : CaseFold} {native candidate : Text}

theorem canonicalize_some (h : canonicalizeNativeSummary f native = some candidate) :
    (∀ field ∈ fields f (sections f native), strip field.2 ≠ []) ∧ candidate =
        preamble ++ List.intercalate ['\n', '\n'] ((fields f (sections f native)).map block) := by
  unfold canonicalizeNativeSummary at h
  dsimp only at h
  split at h
  · cases h
  split at h
  · cases h
  next hany =>
  split at h
  · cases h
    refine ⟨fun field hfield hnil => hany ?_, rfl⟩
    exact any_eq_true.mpr ⟨field, hfield, decide_eq_true hnil⟩
  · cases h

theorem sections_written (hne : fs ≠ []) (h : ∀ g ∈ fs, Writable g) :
    sections f (preamble ++ List.intercalate ['\n', '\n'] (fs.map block)) =
      (readFields fs).foldl (addSection f) [] := by
  obtain ⟨field, rest, rfl⟩ := exists_cons_of_ne_nil hne
  have hquiet : Quiet headingRe none preamble (block field ++ follow rest) :=
    quiet_unhashed (by decide) _
  have hlast : lastOr none preamble = some '\n' := by decide
  rw [sections, intercalate_block, cut_quiet hquiet, hlast, cut_block (h field mem_cons_self)]
  rfl

/-! The names of the fields are plain ASCII, so that their keys are known. -/

section

variable (h : name ∈ requiredFields)
include h

theorem headingKey_name : headingKey f name.toList = f.fold name.toList := by
  have hname : ∀ name ∈ requiredFields, collapse (strip name.toList) = name.toList := by decide
  rw [headingKey, hname name h]

theorem fold_name : f.fold name.toList = name.toList.map Char.toLower := by
  have hascii : ∀ name ∈ requiredFields, name.toList.all (·.toNat < 128) = true := by decide
  exact f.ascii _ (all_iff_forall_prop.mp (hascii name h))

theorem fold_name_inj {name' : String}
    (h' : name' ∈ requiredFields) (heq : f.fold name.toList = f.fold name'.toList) :
    name = name' := by
  have hinj : ∀ name ∈ requiredFields, ∀ name' ∈ requiredFields,
      name.toList.map Char.toLower = name'.toList.map Char.toLower → name = name' := by decide
  rw [fold_name h, fold_name h'] at heq
  exact hinj name h name' h' heq

end

theorem headingKey_swallowed_ne (h : field.1 ∈ requiredFields) (hname : name ∈ requiredFields) :
    headingKey f (swallowed field) ≠ f.fold name.toList := by
  have hkeep : ∀ n ∈ requiredFields, collapse (strip ('#' :: '#' :: ' ' :: n.toList)) =
      '#' :: '#' :: ' ' :: n.toList ∧
        ('#' :: '#' :: ' ' :: n.toList).all (·.toNat < 128) = true := by
    decide
  have hne : ∀ n ∈ requiredFields, ∀ m ∈ requiredFields,
      ('#' :: '#' :: ' ' :: n.toList).map Char.toLower ≠ m.toList.map Char.toLower := by decide
  rw [headingKey, swallowed, (hkeep _ h).1, f.ascii _ (all_iff_forall_prop.mp (hkeep _ h).2),
    fold_name hname]
  exact hne _ h _ hname

theorem suffix_unique {rest' : List (String × Text)} {g g' : String × Text}
    (hnames : (fs.map Prod.fst).Nodup) (h : g :: rest <:+ fs) (h' : g' :: rest' <:+ fs)
    (heq : g.1 = g'.1) : g :: rest = g' :: rest' := by
  -- one of the two is behind the other
  have hbehind : ∀ {g g' : String × Text} {rest rest' : List (String × Text)}, g :: rest <:+ fs →
      g' :: rest' <:+ g :: rest → g.1 = g'.1 → g' :: rest' = g :: rest := by
    intro g g' rest rest' h hsuffix heq
    refine (suffix_cons_iff.mp hsuffix).resolve_right fun hlater => ?_
    have hnew := (nodup_cons.mp (hnames.sublist (h.sublist.map Prod.fst))).1
    exact hnew (heq ▸ mem_map_of_mem (hlater.subset mem_cons_self))
  rcases suffix_or_suffix_of_suffix h h' with hsuffix | hsuffix
  · exact hbehind h' hsuffix heq.symm
  · exact (hbehind h hsuffix heq).symm

theorem allCalm_of_suffix (h : ∀ g rest, g :: rest <:+ fs → Calm g rest) : AllCalm fs := by
  induction fs with
  | nil => trivial
  | cons field fs ih =>
    exact ⟨h field fs suffix_rfl,
      ih fun g rest hsuffix => h g rest (hsuffix.trans (suffix_cons field fs))⟩

def fieldSections (f : CaseFold) (native : Text) : Dict :=
  (fields f (sections f native)).map fun field => (f.fold field.1.toList, field.2)

/-- Look at a heading with the most text in its field: its own section has less, and so has each
piece of the others. -/
theorem allCalm_of_read {fs : List (String × Text)} (hnames : fs.map Prod.fst = requiredFields)
    (hwritable : ∀ g ∈ fs, Writable g) (hstrip : ∀ g ∈ fs, strip g.2 = g.2)
    (hread : ∀ g ∈ fs, (f.fold g.1.toList, g.2) ∈ (readFields fs).foldl (addSection f) []) :
    AllCalm fs := by
  have hrequired : ∀ g ∈ fs, g.1 ∈ requiredFields := fun g hg =>
    hnames ▸ mem_map_of_mem hg
  have hascent : ∀ g rest, g :: rest <:+ fs → ¬Calm g rest →
      ∃ g' rest', g' :: rest' <:+ fs ∧ ¬Calm g' rest' ∧ weight g.2 < weight g'.2 := by
    intro g rest hsuffix hloud
    have hg : g ∈ fs := hsuffix.subset mem_cons_self
    rcases mem_foldl_addSection (hread g hg) with hnil | ⟨e, he, hentry, -⟩
    · cases hnil
    obtain ⟨hkey, htext⟩ := Prod.ext_iff.mp hentry
    cases (readFields_readAs hwritable).origin e he with
    | @swallowed g' hmem hname =>
      rw [hname] at hkey
      exact absurd hkey.symm (headingKey_swallowed_ne (hrequired g' hmem) (hrequired g hg))
    | @calm g' rest' hsuffix' hcalm hname =>
      have hg' : g' ∈ fs := hsuffix'.subset mem_cons_self
      have hkey : f.fold g.1.toList = headingKey f e.1 := hkey
      rw [hname, headingKey_name (hrequired g' hg')] at hkey
      have hsame := fold_name_inj (hrequired g hg) (hrequired g' hg') hkey
      cases suffix_unique (hnames ▸ by decide) hsuffix hsuffix' hsame
      exact absurd hcalm hloud
    | @loud g' rest' hsuffix' hloud' hlt =>
      refine ⟨g', rest', hsuffix', hloud', ?_⟩
      have hg' : g' ∈ fs := hsuffix'.subset mem_cons_self
      have htext : g.2 = strip e.2 := htext
      have hweight : weight (strip e.2) = weight e.2 := countP_trim isSpace e.2
      rwa [htext, hweight, ← hstrip g' hg']
  refine allCalm_of_suffix fun g rest hsuffix => ?_
  by_contra hloud
  -- there would be a heading in a field with any given amount of text
  have hheavy : ∀ n, ∃ g rest, g :: rest <:+ fs ∧ ¬Calm g rest ∧ n ≤ weight g.2 := by
    intro n
    induction n with
    | zero => exact ⟨g, rest, hsuffix, hloud, Nat.zero_le _⟩
    | succ n ih =>
      obtain ⟨g, rest, hsuffix, hloud, hn⟩ := ih
      obtain ⟨g', rest', hsuffix', hloud', hlt⟩ := hascent g rest hsuffix hloud
      exact ⟨g', rest', hsuffix', hloud', Nat.lt_of_le_of_lt hn hlt⟩
  obtain ⟨g, rest, hsuffix, -, hn⟩ := hheavy ((fs.map fun g => weight g.2).sum + 1)
  have hle : weight g.2 ≤ (fs.map fun g => weight g.2).sum :=
    le_sum_of_mem (mem_map_of_mem (hsuffix.subset mem_cons_self))
  omega

theorem nodup_keys (hnames : fs.map Prod.fst = requiredFields) :
    (fs.map fun g => f.fold g.1.toList).Nodup := by
  have hlower : (requiredFields.map fun name => name.toList.map Char.toLower).Nodup := by decide
  have hkeys : (fs.map fun g => f.fold g.1.toList) =
      requiredFields.map fun name => name.toList.map Char.toLower := by
    rw [← hnames, map_map]
    exact map_congr_left fun g hg => fold_name (hnames ▸ mem_map_of_mem hg)
  rwa [hkeys]

theorem lookup_of_mem {d : Dict} (hkeys : (d.map Prod.fst).Nodup) {value : Text}
    (h : (key, value) ∈ d) : d.lookup key = some value := by
  induction d with
  | nil => cases h
  | cons e d ih =>
    obtain ⟨hnew, hd⟩ := nodup_cons.mp hkeys
    rw [lookup_cons]
    rcases mem_cons.mp h with rfl | h
    · rw [beq_self_eq_true]
    have hne : (key == e.1) = false := by
      rw [beq_eq_false_iff_ne]
      intro heq
      exact hnew (mem_map.mpr ⟨(key, value), h, heq⟩)
    rw [hne]
    exact ih hd h

theorem read_of_allCalm (hnames : fs.map Prod.fst = requiredFields)
    (hwritable : ∀ g ∈ fs, Writable g) (hstrip : ∀ g ∈ fs, strip g.2 = g.2) (hcalm : AllCalm fs) :
    (readFields fs).foldl (addSection f) [] = fs.map fun g => (f.fold g.1.toList, g.2) := by
  have hread := readFields_calm hwritable hcalm
  have hentries : (readFields fs).map (fun e => (headingKey f e.1, strip e.2)) =
      fs.map fun g => (f.fold g.1.toList, g.2) := by
    have hkeys := congrArg (List.map fun e => (headingKey f e.1, e.2)) hread
    rw [map_map, map_map] at hkeys
    refine hkeys.trans (map_congr_left fun g hg => ?_)
    show (headingKey f g.1.toList, strip g.2) = _
    rw [headingKey_name (hnames ▸ mem_map_of_mem hg), hstrip g hg]
  have hkeys : ((readFields fs).map fun e => headingKey f e.1).Nodup := by
    have hfst := congrArg (List.map Prod.fst) hentries
    rw [map_map, map_map] at hfst
    exact (congrArg List.Nodup hfst).mpr (nodup_keys hnames)
  have htexts : ∀ e ∈ readFields fs, strip e.2 ≠ [] := by
    intro e he
    have hmem : (e.1, strip e.2) ∈ fs.map fun g => (g.1.toList, strip g.2) :=
      hread ▸ mem_map_of_mem he
    obtain ⟨g, hg, heq⟩ := mem_map.mp hmem
    have htext : strip g.2 = strip e.2 := congrArg Prod.snd heq
    exact htext ▸ (hwritable g hg).text
  rw [foldl_addSection hkeys (fun e he => rfl) htexts, nil_append, hentries]

/-- The handoff has the fields of the native summary exactly if their sources are plain. -/
theorem handoff_faithful_iff (f : CaseFold) (native candidate : Text)
    (h : canonicalizeNativeSummary f native = some candidate) :
    (∀ key, (sections f candidate).lookup key = (fieldSections f native).lookup key) ↔
      PlainSources f native := by
  obtain ⟨htexts, rfl⟩ := canonicalize_some h
  have hwritable := fields_writable htexts
  have hstrip := fields_strip htexts
  have hne : fields f (sections f native) ≠ [] := cons_ne_nil _ _
  rw [← allCalm_fields_iff htexts, sections_written hne hwritable]
  constructor
  · intro hread
    have hkeys : ((fieldSections f native).map Prod.fst).Nodup := by
      rw [fieldSections, map_map]
      exact nodup_keys (fields_names _)
    refine @allCalm_of_read f _ (fields_names _) hwritable hstrip fun g hg => lookup_mem ?_
    rw [hread]
    exact lookup_of_mem hkeys (mem_map.mpr ⟨g, hg, rfl⟩)
  · intro hcalm key
    rw [read_of_allCalm (fields_names _) hwritable hstrip hcalm]
    rfl

/-! ## A heading in a section -/

def asciiFold : CaseFold := ⟨fun cs => cs.map Char.toLower, fun _ _ => rfl⟩

def sampleSummary (actions : String) : Text :=
  ("## Goal\nShip\n## Completed Actions\n" ++ actions ++
    "\n## Constraints & Preferences\nNone\n## Relevant Files\na.go\n## Blocked\nNo\n" ++
    "## Active Task\nTest").toList

theorem plain_actions_kept :
    ∃ candidate, canonicalizeNativeSummary asciiFold (sampleSummary "Built") = some candidate ∧
      ∀ key, (sections asciiFold candidate).lookup key =
        (fieldSections asciiFold (sampleSummary "Built")).lookup key := by
  obtain ⟨candidate, hcandidate⟩ : ∃ candidate,
      canonicalizeNativeSummary asciiFold (sampleSummary "Built") = some candidate :=
    Option.isSome_iff_exists.mp (by decide +kernel)
  exact ⟨candidate, hcandidate,
    (handoff_faithful_iff asciiFold (sampleSummary "Built") candidate hcandidate).mpr
      (by decide +kernel)⟩

/-- The completed actions begin with an indented heading: of the progress the summary has the label
only. -/
theorem indented_heading_lost : let native := sampleSummary " ## Progress\nBuilt"
    ∃ candidate, canonicalizeNativeSummary asciiFold native = some candidate ∧
      (sections asciiFold candidate).lookup "progress".toList =
        some "### Completed Actions".toList ∧
      (fieldSections asciiFold native).lookup "progress".toList =
        some "### Completed Actions\n## Progress\nBuilt".toList := by
  intro native
  have hread : (canonicalizeNativeSummary asciiFold native).map (fun candidate =>
      (sections asciiFold candidate).lookup "progress".toList) =
      some (some "### Completed Actions".toList) := by
    decide +kernel
  obtain ⟨candidate, hcandidate, hlost⟩ := Option.map_eq_some_iff.mp hread
  exact ⟨candidate, hcandidate, hlost, by decide +kernel⟩

end RoundTrip

end CalvoProxy.Summary
