import CalvoProxy.Hermes.Headings

/-!
# Reading fields back

Fields in which no heading starts are read as they were written (`readFields_calm`). Otherwise a
text is cut into pieces that have less in them, and a line `##` can swallow the next heading
(`ReadAs`).
-/

namespace CalvoProxy.Summary

open Cutting List

variable {b cs k text title : Text} {prev : Option Char} {c : Char} {n : Nat}
  {fs : List (String × Text)} {found : Dict} {entry : Text × Text} {es : List (Text × Text)}

/-! ## Fields in a row -/

def follow : List (String × Text) → Text
  | [] => []
  | field :: rest => '\n' :: '\n' :: (block field ++ follow rest)

theorem intercalate_block (field : String × Text) (rest : List (String × Text)) :
    List.intercalate ['\n', '\n'] ((field :: rest).map block) = block field ++ follow rest := by
  induction rest generalizing field with
  | nil => rw [map_singleton, intercalate_singleton, follow, append_nil]
  | cons next rest ih =>
    rw [map_cons, map_cons, intercalate_cons_cons, ← map_cons, ih, append_assoc]
    rfl

structure Writable (field : String × Text) : Prop where
  name : Line field.1.toList
  text : strip field.2 ≠ []

theorem strip_ended (h : strip cs ≠ []) : Ended (strip cs) :=
  ⟨h, (trim_trimmed isSpace cs).last⟩

theorem strip_cons (h : strip cs ≠ []) : ∃ c rest, strip cs = c :: rest ∧ isSpace c = false := by
  obtain ⟨c, rest, hcs⟩ := exists_cons_of_ne_nil h
  exact ⟨c, rest, hcs, (trim_trimmed isSpace cs).head c (by rw [← strip, hcs]; rfl)⟩

def Calm (field : String × Text) (rest : List (String × Text)) : Prop :=
  Quiet headingRe (some '\n') (strip field.2) (follow rest)

def cutField (field : String × Text) (rest : List (String × Text)) : Text × List (Text × Text) :=
  cut headingRe 0 (some '\n') (strip field.2 ++ follow rest)

theorem headingRe_cons_ne (h : c ≠ '#') (prev : Option Char) (cs : Text) :
    headingRe prev (c :: cs) = none := by
  have hnone : heading (c :: cs) = none := heading_none fun y heq => h (cons.inj heq).1
  cases prev with
  | none => exact hnone
  | some c => simp [headingRe, hnone]

theorem cut_newline (prev : Option Char) (cs : Text) : cut headingRe 0 prev ('\n' :: cs) =
      ('\n' :: (cut headingRe 0 (some '\n') cs).1, (cut headingRe 0 (some '\n') cs).2) :=
  cut_none (headingRe_cons_ne (by decide) prev cs)

section Fields

variable {field next : String × Text} {rest : List (String × Text)}

theorem block_append (field : String × Text) (cs : Text) :
    block field ++ cs = '#' :: '#' :: ' ' :: (field.1.toList ++ '\n' :: (strip field.2 ++ cs)) := by
  simp [block]

theorem cut_block (h : Writable field) : cut headingRe 0 (some '\n') (block field ++ follow rest) =
      ([], (field.1.toList, '\n' :: (cutField field rest).1) :: (cutField field rest).2) := by
  obtain ⟨c, text, htext, hc⟩ := strip_cons h.text
  have hmatch : headingRe (some '\n') (block field ++ follow rest) =
      some (field.1.toList, field.1.toList.length + 3) := by
    rw [block_append, htext, cons_append]
    exact heading_line h.name hc _
  rw [block_append] at hmatch ⊢
  rw [cut_some hmatch]
  have hskip := cut_skip headingRe (some '#') ('#' :: ' ' :: field.1.toList)
    ('\n' :: (strip field.2 ++ follow rest))
  rw [cut_newline] at hskip
  simp only [length_cons, cons_append] at hskip
  rw [Nat.add_succ_sub_one, hskip]
  rfl

/-- `##` at the end of a text swallows the next name. -/
def swallowed (field : String × Text) : Text := '#' :: '#' :: ' ' :: field.1.toList

theorem Writable.swallowed_line (h : Writable field) : Line (swallowed field) where
  ne := cons_ne_nil _ _
  last c hc := h.name.last c (by
    rwa [swallowed, List.getLast?_cons_of_ne_nil (cons_ne_nil _ _),
      List.getLast?_cons_of_ne_nil (cons_ne_nil _ _),
      List.getLast?_cons_of_ne_nil h.name.ne] at hc)
  head c hc := by
    cases hc
    decide
  unbroken c hc := by
    simp only [swallowed, mem_cons] at hc
    rcases hc with rfl | rfl | rfl | hc
    · decide
    · decide
    · decide
    · exact h.name.unbroken c hc

theorem cut_bare (h : Writable field) (prev : Option Char) :
    heading ('#' :: '#' :: '\n' :: '\n' :: (block field ++ follow rest)) =
        some (swallowed field, (swallowed field).length + 4) ∧
      cut headingRe ((swallowed field).length + 3) prev
          ('#' :: '\n' :: '\n' :: (block field ++ follow rest)) =
        ('\n' :: (cutField field rest).1, (cutField field rest).2) := by
  obtain ⟨c, text, htext, hc⟩ := strip_cons h.text
  have hblock : block field ++ follow rest =
      swallowed field ++ '\n' :: (strip field.2 ++ follow rest) := by
    rw [block_append]
    rfl
  rw [hblock]
  constructor
  · rw [htext, cons_append]
    exact heading_bare h.swallowed_line hc _
  · have hskip := cut_skip headingRe prev ('#' :: '\n' :: '\n' :: swallowed field)
      ('\n' :: (strip field.2 ++ follow rest))
    rw [cut_newline] at hskip
    exact hskip

/-! ## Reading the fields back -/

def weight (cs : Text) : Nat := cs.countP fun c => !isSpace c

/-- The sections found in some fields; a field in which a heading starts is cut into smaller
pieces. -/
inductive ReadAs : List (String × Text) → List (Text × Text) → Prop
  | nil : ReadAs [] []
  | calm {field : String × Text} {rest : List (String × Text)} {title text : Text}
      {sections : List (Text × Text)}
      (name : title = field.1.toList ∨ title = swallowed field) (quiet : Calm field rest)
      (later : ReadAs rest sections) : ReadAs (field :: rest) ((title, text) :: sections)
  | loud {field : String × Text} {rest : List (String × Text)} {title text : Text}
      {pieces sections : List (Text × Text)} (loud : ¬Calm field rest)
      (text_lt : weight text < weight (strip field.2))
      (pieces_lt : ∀ e ∈ pieces, weight e.2 < weight (strip field.2))
      (later : ReadAs rest sections) : ReadAs (field :: rest) ((title, text) :: (pieces ++ sections))

theorem heading_of_headingRe {m : Text × Nat}
    (h : headingRe prev cs = some m) : heading cs = some m := by
  cases prev with
  | none => exact h
  | some c =>
    simp only [headingRe] at h
    split at h
    · exact h
    · cases h

theorem cut_beyond (h : Writable next) (htext : Ended text)
    (hsuffix : c :: b <:+ text ++ ['\n', '\n'])
    (hmatch : headingRe prev (c :: (b ++ (block next ++ follow rest))) = some (k, n))
    (hn : b.length < n - 1) :
    k = swallowed next ∧ cut headingRe (n - 1) (some c) (b ++ (block next ++ follow rest)) =
        ('\n' :: (cutField next rest).1, (cutField next rest).2) := by
  have hheading := heading_of_headingRe hmatch
  have hc : c ≠ '\n' := by
    rintro rfl
    cases (headingRe_cons_ne (by decide) _ _).symm.trans hmatch
  obtain ⟨r, hr, hne, hcb⟩ : ∃ r, r <:+ text ∧ r ≠ [] ∧ c :: b = r ++ ['\n', '\n'] := by
    obtain ⟨before, hbefore⟩ := hsuffix
    rcases append_eq_append_iff.mp hbefore with ⟨r, htext, hcb⟩ | ⟨r, -, hblank⟩
    · refine ⟨r, ⟨before, htext.symm⟩, ?_, hcb⟩
      rintro rfl
      cases hcb
      exact hc rfl
    · have hmem : c ∈ ['\n', '\n'] := hblank ▸ mem_append_right r mem_cons_self
      simp only [mem_cons, not_mem_nil, or_false, or_self] at hmem
      exact absurd hmem hc
  have hbeyond : r = ['#', '#'] := by
    have hlong : r.length + 2 < n := by
      have hlength := congrArg List.length hcb
      simp only [length_cons, length_append, length_nil] at hlength
      omega
    rw [← cons_append, hcb, block_append, append_assoc] at hheading
    exact heading_beyond (htext.suffix hr hne) (by decide) hheading hlong
  subst hbeyond
  cases hcb
  obtain ⟨hbare, hcut⟩ := @cut_bare next rest h (some '#')
  cases hheading.symm.trans hbare
  exact ⟨rfl, hcut⟩

/-- The fields are read as `ReadAs` says, by whichever title the first is found. -/
def ReadsOn : List (String × Text) → Prop
  | [] => True
  | field :: rest => ∀ {title}, title = field.1.toList ∨ title = swallowed field →
      ReadAs (field :: rest) ((title, '\n' :: (cutField field rest).1) :: (cutField field rest).2)

theorem cut_match {a : Text} (htext : Ended text)
    (hsplit : text = a ++ c :: b) (hmatch : headingRe prev (c :: (b ++ follow rest)) = some (k, n))
    (h : ∀ g ∈ rest, Writable g) (hlater : ReadsOn rest) :
    let r := cut headingRe (n - 1) (some c) (b ++ follow rest)
    ∃ pieces sections, (k, r.1) :: r.2 = pieces ++ sections ∧ ReadAs rest sections ∧
      ∀ e ∈ pieces, weight e.2 ≤ weight b := by
  cases rest with
  | nil =>
    have hle := cut_countP_le headingRe (fun c => !isSpace c) (n - 1) (some c) b
    rw [follow, append_nil]
    exact ⟨(k, _) :: _, [], (append_nil _).symm, .nil, forall_mem_cons.mpr hle⟩
  | cons next rest =>
    have hnext := h next mem_cons_self
    have hgap : b ++ follow (next :: rest) =
        (b ++ ['\n', '\n']) ++ (block next ++ follow rest) := by
      simp [follow]
    have hsuffix : c :: (b ++ ['\n', '\n']) <:+ text ++ ['\n', '\n'] :=
      ⟨a, by rw [hsplit]; simp⟩
    rw [hgap] at hmatch ⊢
    -- a match beyond the text leaves the next field under another name
    have hbeyond : ∀ prev d e k n, d :: e <:+ text ++ ['\n', '\n'] →
        headingRe prev (d :: (e ++ (block next ++ follow rest))) = some (k, n) →
        e.length < n - 1 →
        ReadAs (next :: rest)
          ((k, (cut headingRe (n - 1) (some d) (e ++ (block next ++ follow rest))).1) ::
            (cut headingRe (n - 1) (some d) (e ++ (block next ++ follow rest))).2) := by
      intro prev d e k n hde hmatch hn
      obtain ⟨rfl, hcut⟩ := cut_beyond hnext htext hde hmatch hn
      rw [hcut]
      exact hlater (.inr rfl)
    by_cases hn : n - 1 ≤ (b ++ ['\n', '\n']).length
    · have hlast : lastOr (some c) (b ++ ['\n', '\n']) = some '\n' := by
        rw [lastOr_append]
        rfl
      obtain ⟨pieces, sections, hcut, hsections, hfirst, hpieces⟩ :=
        @cut_bounded _ _ headingRe (some c) (b ++ ['\n', '\n']) (block next ++ follow rest)
          (ReadAs (next :: rest)) (fun c => !isSpace c) (n - 1) hn
          ⟨_, by rw [hlast]; exact cut_block hnext, hlater (.inl rfl)⟩
          fun prev d e k n hde => hbeyond prev d e k n (hde.trans ((suffix_cons c _).trans hsuffix))
      have hblank : (b ++ ['\n', '\n']).countP (fun c => !isSpace c) = weight b := by
        rw [countP_append]
        exact Nat.add_zero _
      rw [hblank] at hfirst hpieces
      exact ⟨(k, _) :: pieces, sections, congrArg (_ :: ·) hcut, hsections,
        forall_mem_cons.mpr ⟨hfirst, hpieces⟩⟩
    · exact ⟨[], _, rfl, hbeyond prev c _ k n hsuffix hmatch (Nat.lt_of_not_le hn),
        fun e he => absurd he not_mem_nil⟩

theorem weight_append (x y : Text) : weight (x ++ y) = weight x + weight y := countP_append

theorem ReadsOn.cons (h : ∀ g ∈ field :: rest, Writable g) (hlater : ReadsOn rest) :
    ReadsOn (field :: rest) := by
  intro title hname
  have hrest : ∀ g ∈ rest, Writable g := fun g hg => h g (mem_cons_of_mem field hg)
  by_cases hcalm : Calm field rest
  · refine .calm hname hcalm ?_
    rw [cutField, cut_quiet hcalm]
    cases rest with
    | nil =>
      rw [follow, cut_nil]
      exact .nil
    | cons next rest =>
      rw [follow, cut_newline, cut_newline, cut_block (hrest next mem_cons_self)]
      exact hlater (.inl rfl)
  · obtain ⟨a, c, b, k, n, hsplit, hquiet, hmatch⟩ := exists_first hcalm
    obtain ⟨pieces, sections, hpieces, hsections, hle⟩ :=
      cut_match (strip_ended (h field mem_cons_self).text) hsplit hmatch hrest hlater
    have hcut : cutField field rest = (a, pieces ++ sections) := by
      rw [cutField, hsplit, append_assoc, cut_quiet hquiet, cons_append, cut_some hmatch,
        hpieces, append_nil]
    -- the match itself has a character that is not blank
    have hlt : weight a + weight b < weight (strip field.2) := by
      obtain ⟨y, m, hcons, -⟩ := heading_some (heading_of_headingRe hmatch)
      have hc : c = '#' := (List.cons.inj hcons).1
      have hhash : weight ('#' :: b) = weight b + 1 := countP_cons_of_pos (by decide)
      rw [hsplit, weight_append, hc, hhash]
      exact Nat.lt_succ_self _
    rw [hcut]
    refine .loud hcalm ?_ (fun e he => lt_of_le_of_lt (hle e he) (by omega)) hsections
    show weight a < _
    omega

theorem readsOn {fields : List (String × Text)} (h : ∀ g ∈ fields, Writable g) :
    ReadsOn fields := by
  induction fields with
  | nil => trivial
  | cons field rest ih => exact ReadsOn.cons h (ih fun g hg => h g (mem_cons_of_mem field hg))

/-- The sections found in some fields, from the first heading on. -/
def readFields : List (String × Text) → List (Text × Text)
  | [] => []
  | field :: rest => (field.1.toList, '\n' :: (cutField field rest).1) :: (cutField field rest).2

theorem cutField_calm (hcalm : Calm field rest) (h : ∀ g ∈ rest, Writable g) :
    strip ('\n' :: (cutField field rest).1) = strip field.2 ∧
      (cutField field rest).2 = readFields rest := by
  rw [cutField, cut_quiet hcalm]
  have hstrip : ∀ after : Text, after.all isSpace = true →
      strip ('\n' :: (strip field.2 ++ after)) = strip field.2 := fun after hafter =>
    @trim_append _ isSpace (strip field.2) (trim_trimmed isSpace field.2) ['\n'] after (by decide)
      hafter
  cases rest with
  | nil =>
    rw [follow, cut_nil]
    exact ⟨hstrip [] rfl, rfl⟩
  | cons next rest =>
    rw [follow, cut_newline, cut_newline, cut_block (h next mem_cons_self)]
    exact ⟨hstrip ['\n', '\n'] (by decide), rfl⟩

def AllCalm : List (String × Text) → Prop
  | [] => True
  | field :: rest => Calm field rest ∧ AllCalm rest

theorem readFields_calm (h : ∀ g ∈ fs, Writable g) (hcalm : AllCalm fs) :
    (readFields fs).map (fun e => (e.1, strip e.2)) = fs.map fun g => (g.1.toList, strip g.2) := by
  induction fs with
  | nil => rfl
  | cons field rest ih =>
    obtain ⟨hfield, hrest⟩ := forall_mem_cons.mp h
    obtain ⟨htext, hlater⟩ := cutField_calm hcalm.1 hrest
    rw [readFields, map_cons, map_cons, htext, hlater, ih hrest hcalm.2]

theorem readFields_readAs (h : ∀ g ∈ fs, Writable g) : ReadAs fs (readFields fs) := by
  cases fs with
  | nil => exact .nil
  | cons field rest => exact readsOn h (.inl rfl)

/-- A section is under a swallowed name, or of a field without headings, or a piece of a field with
some. -/
inductive Origin (fs : List (String × Text)) (e : Text × Text) : Prop
  | swallowed {g : String × Text} (mem : g ∈ fs) (name : e.1 = swallowed g)
  | calm {g : String × Text} {rest : List (String × Text)} (suffix : g :: rest <:+ fs)
      (calm : Calm g rest) (name : e.1 = g.1.toList)
  | loud {g : String × Text} {rest : List (String × Text)} (suffix : g :: rest <:+ fs)
      (loud : ¬Calm g rest) (lt : weight e.2 < weight (strip g.2))

theorem Origin.cons {fs : List (String × Text)} {e : Text × Text} (field : String × Text)
    (h : Origin fs e) : Origin (field :: fs) e := by
  have htail := suffix_cons field fs
  cases h with
  | swallowed hmem hname => exact .swallowed (mem_cons_of_mem field hmem) hname
  | calm hsuffix hcalm hname => exact .calm (hsuffix.trans htail) hcalm hname
  | loud hsuffix hloud hlt => exact .loud (hsuffix.trans htail) hloud hlt

theorem ReadAs.origin {found : List (Text × Text)}
    (h : ReadAs fs found) : ∀ e ∈ found, Origin fs e := by
  induction h with
  | nil => exact fun e he => absurd he not_mem_nil
  | calm hname hcalm _ ih =>
    refine forall_mem_cons.mpr ⟨?_, fun e he => (ih e he).cons _⟩
    rcases hname with hname | hname
    · exact .calm suffix_rfl hcalm hname
    · exact .swallowed mem_cons_self hname
  | loud hloud htext hpieces _ ih =>
    refine forall_mem_cons.mpr ⟨.loud suffix_rfl hloud htext, fun e he => ?_⟩
    rcases mem_append.mp he with he | he
    · exact .loud suffix_rfl hloud (hpieces e he)
    · exact (ih e he).cons _

end Fields

section Dict

variable {f : CaseFold}

theorem mem_addSection {e : Text × Text} (h : entry ∈ addSection f found e) :
    entry ∈ found ∨ entry = (headingKey f e.1, strip e.2) ∧ strip e.2 ≠ [] := by
  unfold addSection at h
  dsimp only at h
  split at h
  · next hnew =>
    rcases mem_append.mp h with h | h
    · exact .inl h
    · exact .inr ⟨mem_singleton.mp h, hnew.1⟩
  · exact .inl h

theorem mem_foldl_addSection (h : entry ∈ es.foldl (addSection f) found) :
    entry ∈ found ∨ ∃ e ∈ es, entry = (headingKey f e.1, strip e.2) ∧ strip e.2 ≠ [] := by
  induction es generalizing found with
  | nil => exact .inl h
  | cons e es ih =>
    rcases ih h with h | ⟨e', he', hentry⟩
    · rcases mem_addSection h with h | hentry
      · exact .inl h
      · exact .inr ⟨e, mem_cons_self, hentry⟩
    · exact .inr ⟨e', mem_cons_of_mem e he', hentry⟩

theorem lookup_mem {d : Dict} {key value : Text} (h : d.lookup key = some value) :
    (key, value) ∈ d := by
  obtain ⟨before, after, rfl, -⟩ := lookup_eq_some_iff.mp h
  exact mem_append_right _ mem_cons_self

theorem foldl_addSection (hkeys : (es.map fun e => headingKey f e.1).Nodup)
    (hnew : ∀ e ∈ es, found.lookup (headingKey f e.1) = none)
    (htext : ∀ e ∈ es, strip e.2 ≠ []) :
    es.foldl (addSection f) found = found ++ es.map fun e => (headingKey f e.1, strip e.2) := by
  induction es generalizing found with
  | nil => exact (append_nil found).symm
  | cons e es ih =>
    obtain ⟨hnewe, hnews⟩ := forall_mem_cons.mp hnew
    obtain ⟨htexte, htexts⟩ := forall_mem_cons.mp htext
    obtain ⟨hkeye, hkeyes⟩ := nodup_cons.mp hkeys
    have hadd : addSection f found e = found ++ [(headingKey f e.1, strip e.2)] :=
      if_pos ⟨htexte, hnewe⟩
    have hnews' : ∀ e' ∈ es,
        (found ++ [(headingKey f e.1, strip e.2)]).lookup (headingKey f e'.1) = none := by
      intro e' he'
      have hne : (headingKey f e'.1 == headingKey f e.1) = false := by
        rw [beq_eq_false_iff_ne]
        exact fun heq => hkeye (mem_map.mpr ⟨e', he', heq⟩)
      rw [lookup_append, hnews e' he', lookup_cons, hne]
      rfl
    rw [foldl_cons, hadd, ih hkeyes hnews' htexts, append_assoc]
    rfl

end Dict

end CalvoProxy.Summary
