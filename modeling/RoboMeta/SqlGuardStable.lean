/-
  Blanks and semicolons around a text.

  The guard decides on the scan and returns a part of the text itself.  Neither
  changes with white space in front of the text and with white space and
  semicolons behind it, also where these are taken for the end of an open
  comment, quote or dollar-quoted text.

  * `exists_scan_append`: what is left of them in the scan is idle;
  * `execOf_append`, `execOf_eq`: what is executed;
  * `normalisation_stable`: the verdict, and that of the text returned.
-/
import RoboMeta.SqlGuardComplete

namespace RoboMeta

/-! ## Idle characters -/

section
variable {c : Char} {t : Text} (ht : Idling t)
include ht

theorem Idling.notMem {d : Char} (hspace : isSpace d = false) (hne : d ≠ ';') : d ∉ t := by
  intro hd
  rcases ht d hd with h | h
  · rw [h] at hspace
    cases hspace
  · exact hne h

theorem Idling.wordCont_eq_false (hc : c ∈ t) : wordCont c = false := by
  rcases ht c hc with h | rfl
  · exact (not_word_of_isSpace c h).2
  · decide

theorem Idling.wordStart_eq_false (hc : c ∈ t) : wordStart c = false := by
  rcases ht c hc with h | rfl
  · exact (not_word_of_isSpace c h).1
  · decide

theorem Idling.suffix {t' : Text} (h : t' <:+ t) : Idling t' := fun d hd => ht d (h.subset hd)

end

theorem Blank.idling {w : Text} (h : Blank w) : Idling w := fun c hc => Or.inl (h c hc)

/-! ## Terminators do not straddle -/

theorem upTo_le {pat s : Text} {n : ℕ} (h : upTo pat s = some n) : n ≤ s.length := by
  induction s generalizing n with
  | nil => cases h
  | cons c s ih =>
    rw [upTo] at h
    split_ifs at h with hpre
    · cases h
      exact (List.isPrefixOf_iff_prefix.1 hpre).length_le
    · obtain ⟨k, hk, rfl⟩ := Option.map_eq_some_iff.1 h
      exact Nat.succ_le_succ (ih hk)

section
variable {pat t : Text} {d : Char} (hd : d ∉ t)
include hd

/-- A pattern whose last symbol is not in `t` does not reach into it. -/
theorem prefix_append_iff {s : Text} : pat ++ [d] <+: s ++ t ↔ pat ++ [d] <+: s := by
  refine ⟨fun h => ?_, fun h => h.trans (List.prefix_append s t)⟩
  rcases List.prefix_or_prefix_of_prefix h (List.prefix_append s t) with hs | ⟨u, hu⟩
  · exact hs
  · rw [← hu, List.prefix_append_right_inj] at h
    rcases List.eq_nil_or_concat u with rfl | ⟨v, e, rfl⟩
    · rw [List.append_nil] at hu
      exact ⟨[], by rw [List.append_nil, hu]⟩
    · rw [List.concat_eq_append, ← List.append_assoc] at hu
      obtain rfl : e = d := List.singleton_inj.1 (List.append_inj' hu rfl).2
      exact absurd (h.subset (by simp)) hd

theorem upTo_append_of_notMem (s : Text) : upTo (pat ++ [d]) (s ++ t) = upTo (pat ++ [d]) s := by
  have hnone : ∀ u : Text, u <:+ t → upTo (pat ++ [d]) u = none := by
    intro u hu
    induction u with
    | nil => rfl
    | cons c u ih =>
      have hnot : ¬ pat ++ [d] <+: c :: u := fun h => hd (hu.subset (h.subset (by simp)))
      rw [upTo, if_neg (by rwa [List.isPrefixOf_iff_prefix]), ih ((List.suffix_cons c u).trans hu)]
      rfl
  induction s with
  | nil => exact hnone t (List.suffix_refl t)
  | cons c s ih =>
    have hpre := @prefix_append_iff pat t d hd (c :: s)
    rw [List.cons_append] at hpre
    rw [List.cons_append, upTo, upTo, ih]
    simp only [List.isPrefixOf_iff_prefix, hpre]

end

/-! ## The five passes -/

theorem quotedTail_le {q : Char} {s : Text} {n : ℕ} (h : quotedTail q s = some n) : n ≤ s.length := by
  fun_induction quotedTail q s generalizing n with
  | case1 | case3 => cases h
  | case2 => cases h; exact le_rfl
  | case4 s ih =>
    cases htail : quotedTail q s with
    | none =>
      rw [htail] at h
      cases h
      simp
    | some k =>
      rw [htail] at h
      cases h
      exact Nat.succ_le_succ (Nat.succ_le_succ (ih htail))
  | case5 d s hd => cases h; simp
  | case6 c d s hc ih =>
    obtain ⟨k, hk, rfl⟩ := Option.map_eq_some_iff.1 h
    exact Nat.succ_le_succ (ih hk)

theorem quotedTail_of_notMem {q : Char} {t : Text} (h : q ∉ t) : quotedTail q t = none := by
  fun_induction quotedTail q t with
  | case1 | case3 => rfl
  | case2 | case4 s ih | case5 d s hd => exact absurd List.mem_cons_self h
  | case6 c d s hc ih => rw [ih (List.not_mem_of_not_mem_cons h)]; rfl

theorem quotedTail_append {q : Char} {t : Text} (h : q ∉ t) (s : Text) :
    quotedTail q (s ++ t) = quotedTail q s := by
  fun_induction quotedTail q s with
  | case1 => exact quotedTail_of_notMem h
  | case2 =>
    cases t with
    | nil => simp [quotedTail]
    | cons d t =>
      have hd : d ≠ q := (List.ne_of_not_mem_cons h).symm
      simp [quotedTail, hd]
  | case3 c hc => exact quotedTail_of_notMem (by simp [h, Ne.symm hc])
  | case4 s ih => simp [quotedTail, ih]
  | case5 d s hd => simp [quotedTail, hd]
  | case6 c d s hc ih =>
    rw [List.cons_append] at ih
    simp [quotedTail, hc, ih]

/-- A match that opens with two symbols opens in the text, if the second is not
    behind it. -/
theorem opens_or_none {m : Scan.Matcher Char} {x y : Char} {t : Text} (hm : Scan.OpensWith m x y) (hy : y ∉ t)
    (a : Char) (s : Text) : (∃ u, a = x ∧ s = y :: u) ∨ m (a :: (s ++ t)) = none ∧ m (a :: s) = none := by
  by_cases hopens : ∃ u, a = x ∧ s = y :: u
  · exact Or.inl hopens
  · refine Or.inr ⟨?_, ?_⟩
    · by_contra hsome
      obtain ⟨u, hu⟩ := hm _ hsome
      obtain ⟨ha, hu⟩ := List.cons.inj hu
      cases s with
      | nil =>
        rw [List.nil_append] at hu
        exact hy (hu ▸ List.mem_cons_self)
      | cons b s =>
        obtain ⟨hb, -⟩ := List.cons.inj hu
        exact hopens ⟨s, ha, by rw [hb]⟩
    · by_contra hsome
      obtain ⟨u, hu⟩ := hm _ hsome
      obtain ⟨ha, hs⟩ := List.cons.inj hu
      exact hopens ⟨u, ha, hs⟩

theorem takeWhile_append_cases (p : Char → Bool) (s t : Text) :
    (s ++ t).takeWhile p = s.takeWhile p ∨ s.takeWhile p = s ∧ (s ++ t).takeWhile p = s ++ t.takeWhile p := by
  by_cases hall : ∀ c ∈ s, p c = true
  · exact Or.inr ⟨List.takeWhile_eq_self_iff.2 hall, List.takeWhile_append_of_pos hall⟩
  · left
    induction s with
    | nil => exact absurd nofun hall
    | cons c s ih =>
      cases hc : p c with
      | false => simp [hc]
      | true =>
        have hrest : ¬ ∀ d ∈ s, p d = true := fun h => hall fun d hd => by
          rcases List.mem_cons.1 hd with rfl | hd
          · exact hc
          · exact h d hd
        simp [hc, ih hrest]

/-- The name behind a dollar, if the tag closes behind it. -/
def tagName (s : Text) : Text := if s.head?.any wordStart then s.takeWhile wordCont else []

theorem tagName_initial (s : Text) : tagName s <+: s := by
  rw [tagName]
  split_ifs
  · exact List.takeWhile_prefix _
  · exact List.nil_prefix

theorem dollarTag_dollar (s : Text) :
    dollarTag ('$' :: s) =
      if (s.drop (tagName s).length).head? = some '$' then some (tagOf (tagName s)) else none := rfl

theorem dollarTag_eq_none {a : Char} (ha : a ≠ '$') (s : Text) : dollarTag (a :: s) = none := by
  unfold dollarTag
  split
  · rename_i heq
    exact absurd (List.cons.inj heq).1 ha
  · rfl

theorem dollarTag_initial {s tag : Text} (h : dollarTag s = some tag) : tag <+: s ∧ ∃ name, tag = tagOf name := by
  cases s with
  | nil => cases h
  | cons a s =>
    by_cases ha : a = '$'
    · subst ha
      rw [dollarTag_dollar] at h
      split_ifs at h with hdollar
      cases h
      obtain ⟨u, hu⟩ := tagName_initial s
      have hdrop : s.drop (tagName s).length = u :=
        (congrArg (List.drop (tagName s).length) hu.symm).trans List.drop_left
      obtain ⟨v, rfl⟩ := List.head?_eq_some_iff.1 (hdrop ▸ hdollar)
      refine ⟨⟨v, ?_⟩, _, rfl⟩
      rw [tagOf, List.cons_append, List.cons_append, List.append_assoc]
      exact congrArg ('$' :: ·) hu
    · rw [dollarTag_eq_none ha] at h
      cases h

section
variable {t : Text} (ht : Idling t)
include ht

theorem unmoved_quoted {q : Char} (hspace : isSpace q = false) (hne : q ≠ ';') : Scan.Unmoved (quoted q) t where
  inert := inert_quoted fun c hc => by
    rintro rfl
    exact ht.notMem hspace hne hc
  bounded {s n} h := by
    cases s with
    | nil => cases h
    | cons c s =>
      rw [quoted] at h
      split_ifs at h
      obtain ⟨k, hk, rfl⟩ := Option.map_eq_some_iff.1 h
      exact Nat.succ_le_succ (quotedTail_le hk)
  step a s := Or.inl (by rw [quoted, quoted, quotedTail_append (ht.notMem hspace hne)])

theorem unmoved_blockComment : Scan.Unmoved blockComment t where
  inert := inert_blockComment fun c hc => by
    rintro rfl
    exact ht.notMem (by decide) (by decide) hc
  bounded {s n} h := by
    obtain ⟨u, rfl⟩ := opensWith_blockComment s (by simp [h])
    obtain ⟨k, hk, rfl⟩ := Option.map_eq_some_iff.1 h
    exact Nat.succ_le_succ (Nat.succ_le_succ (upTo_le hk))
  step a s := by
    left
    rcases opens_or_none opensWith_blockComment (ht.notMem (d := '*') (by decide) (by decide)) a s with
      ⟨u, rfl, rfl⟩ | ⟨h, h'⟩
    · have hend := @upTo_append_of_notMem ['*'] t '/' (ht.notMem (by decide) (by decide)) u
      exact congrArg (Option.map (· + 2)) hend
    · rw [h, h']

theorem unmoved_lineComment : Scan.Unmoved lineComment t where
  inert := inert_lineComment fun c hc => by
    rintro rfl
    exact ht.notMem (by decide) (by decide) hc
  bounded {s n} h := by
    obtain ⟨u, rfl⟩ := opensWith_lineComment s (by simp [h])
    cases h
    have hlength := (List.takeWhile_prefix (l := u) fun c => c != '\n' && c != '\r').length_le
    simp only [List.length_cons]
    omega
  step a s := by
    rcases opens_or_none opensWith_lineComment (ht.notMem (d := '-') (by decide) (by decide)) a s with
      ⟨u, rfl, rfl⟩ | ⟨h, h'⟩
    · rcases takeWhile_append_cases (fun c => c != '\n' && c != '\r') u t with hsame | ⟨hall, hmore⟩
      · left
        rw [List.cons_append, lineComment, lineComment, hsame]
      · right
        refine ⟨?_, _, (List.takeWhile_prefix (l := t) fun c => c != '\n' && c != '\r').length_le, ?_⟩
        · rw [lineComment, hall, List.length_cons]
          congr 1
          omega
        · rw [List.cons_append, lineComment, hmore, List.length_append, List.length_cons]
          congr 1
          omega
    · exact Or.inl (by rw [h, h'])

theorem tagName_append_idle (s : Text) : tagName (s ++ t) = tagName s := by
  have hstart : t.head?.any wordStart = false := by
    cases t with
    | nil => rfl
    | cons c t => exact ht.wordStart_eq_false List.mem_cons_self
  have hcont : t.takeWhile wordCont = [] := by
    cases t with
    | nil => rfl
    | cons c t => exact List.takeWhile_cons_of_neg (by rw [ht.wordCont_eq_false List.mem_cons_self]; decide)
  cases s with
  | nil => rw [List.nil_append, tagName, hstart]; rfl
  | cons c s =>
    rw [tagName, tagName]
    rcases takeWhile_append_cases wordCont (c :: s) t with hsame | ⟨hall, hmore⟩
    · rw [hsame]
      rfl
    · rw [hmore, hcont, List.append_nil, hall]
      rfl

theorem dollarTag_append_idle (a : Char) (s : Text) : dollarTag (a :: (s ++ t)) = dollarTag (a :: s) := by
  by_cases ha : a = '$'
  · subst ha
    have hlength := (tagName_initial s).length_le
    have hhead : (s.drop (tagName s).length ++ t).head? = some '$' ↔
        (s.drop (tagName s).length).head? = some '$' := by
      cases s.drop (tagName s).length with
      | nil =>
        refine iff_of_false (fun h => ?_) nofun
        exact ht.notMem (d := '$') (by decide) (by decide) (List.mem_of_mem_head? h)
      | cons c u => rfl
    rw [dollarTag_dollar, dollarTag_dollar, tagName_append_idle ht, List.drop_append_of_le_length hlength]
    simp only [hhead]
  · rw [dollarTag_eq_none ha, dollarTag_eq_none ha]

theorem unmoved_dollarQuoted : Scan.Unmoved dollarQuoted t where
  inert := inert_dollarQuoted fun c hc => by
    rintro rfl
    exact ht.notMem (by decide) (by decide) hc
  bounded {s n} h := by
    obtain ⟨tag, htag, rfl⟩ := Option.map_eq_some_iff.1 h
    have hpre := (dollarTag_initial htag).1.length_le
    cases hend : upTo tag (s.drop tag.length) with
    | none => exact le_rfl
    | some k =>
      have hk := upTo_le hend
      rw [List.length_drop] at hk
      rw [Option.map_some, Option.getD_some]
      omega
  step a s := by
    unfold dollarQuoted
    rw [dollarTag_append_idle ht]
    cases htag : dollarTag (a :: s) with
    | none => exact Or.inl rfl
    | some tag =>
      obtain ⟨hpre, name, rfl⟩ := dollarTag_initial htag
      have hend := @upTo_append_of_notMem ('$' :: name) t '$' (ht.notMem (by decide) (by decide))
        ((a :: s).drop (tagOf name).length)
      rw [← List.drop_append_of_le_length hpre.length_le] at hend
      have hend : upTo (tagOf name) ((a :: (s ++ t)).drop (tagOf name).length) =
        upTo (tagOf name) ((a :: s).drop (tagOf name).length) := hend
      rw [Option.map_some, Option.map_some, hend]
      cases upTo (tagOf name) ((a :: s).drop (tagOf name).length) with
      | some k => exact Or.inl rfl
      | none =>
        refine Or.inr ⟨rfl, t.length, le_rfl, ?_⟩
        simp

end

/-! ## The lexer -/

theorem closingQuote_le {q : Char} {s : Text} {n : ℕ} (h : closingQuote q s = some n) : n ≤ s.length := by
  fun_induction closingQuote q s generalizing n with
  | case1 | case3 => cases h
  | case2 => cases h; exact le_rfl
  | case4 s ih =>
    obtain ⟨k, hk, rfl⟩ := Option.map_eq_some_iff.1 h
    exact Nat.succ_le_succ (Nat.succ_le_succ (ih hk))
  | case5 d s hd => cases h; simp
  | case6 c d s hc ih =>
    obtain ⟨k, hk, rfl⟩ := Option.map_eq_some_iff.1 h
    exact Nat.succ_le_succ (ih hk)

theorem closingQuote_of_notMem {q : Char} {t : Text} (h : q ∉ t) : closingQuote q t = none := by
  fun_induction closingQuote q t with
  | case1 | case3 => rfl
  | case2 | case4 s ih | case5 d s hd => exact absurd List.mem_cons_self h
  | case6 c d s hc ih => rw [ih (List.not_mem_of_not_mem_cons h)]; rfl

theorem closingQuote_append_of_notMem {q : Char} {t : Text} (h : q ∉ t) (s : Text) :
    closingQuote q (s ++ t) = closingQuote q s := by
  fun_induction closingQuote q s with
  | case1 => exact closingQuote_of_notMem h
  | case2 =>
    cases t with
    | nil => simp [closingQuote]
    | cons d t =>
      have hd : d ≠ q := (List.ne_of_not_mem_cons h).symm
      simp [closingQuote, hd]
  | case3 c hc => exact closingQuote_of_notMem (by simp [h, Ne.symm hc])
  | case4 s ih => simp [closingQuote, ih]
  | case5 d s hd => simp [closingQuote, hd]
  | case6 c d s hc ih =>
    rw [List.cons_append] at ih
    simp [closingQuote, hc, ih]

/-- A quoted region, which goes on to the end of the text if it is not closed. -/
def openQuoted (q : Char) : Scan.Matcher Char
  | [] => none
  | c :: s => if c = q then some ((closingQuote q s).getD s.length + 1) else none

/-- A block comment, which goes on to the end of the text if it is not closed. -/
def openBlock : Scan.Matcher Char
  | '/' :: '*' :: s => some ((upTo ['*', '/'] s).getD s.length + 2)
  | _ => none

theorem opensWith_openBlock : Scan.OpensWith openBlock '/' '*' := by
  intro s hs
  unfold openBlock at hs
  split at hs
  · exact ⟨_, rfl⟩
  · exact absurd rfl hs

/-- The regions that open with a character. -/
def regionAt (a : Char) : Scan.Matcher Char :=
  if a = '-' then lineComment
  else if a = '/' then openBlock
  else if a = '\'' then openQuoted '\''
  else if a = '"' then openQuoted '"'
  else dollarQuoted

theorem hiddenRegion_cons (a : Char) (s : Text) : hiddenRegion (a :: s) = regionAt a (a :: s) := by
  unfold regionAt
  split_ifs with hdash hslash hsingle hdouble
  · subst hdash
    cases s with
    | nil => rfl
    | cons b s => by_cases hb : b = '-' <;> simp [hiddenRegion, lineComment, dollarQuoted, dollarTag, hb]
  · subst hslash
    cases s with
    | nil => rfl
    | cons b s => by_cases hb : b = '*' <;> simp [hiddenRegion, openBlock, dollarQuoted, dollarTag, hb]
  · subst hsingle
    rfl
  · subst hdouble
    rfl
  · unfold hiddenRegion
    split <;> simp_all

/-- A region that is not closed goes on over what is behind the text. -/
theorem step_open {o o' : Option ℕ} {k n : ℕ} {t u : Text} (ho : o' = o) (hk : u.length + k = n + 1) :
    some (o'.getD (u ++ t).length + k) = some (o.getD u.length + k) ∨
      some (o.getD u.length + k) = some (n + 1) ∧
        ∃ e ≤ t.length, some (o'.getD (u ++ t).length + k) = some (n + e + 1) := by
  subst ho
  cases o' with
  | some n => exact Or.inl rfl
  | none =>
    refine Or.inr ⟨congrArg some hk, t.length, le_rfl, congrArg some ?_⟩
    rw [Option.getD_none, List.length_append]
    omega

section
variable {t : Text} (ht : Idling t)
include ht

theorem unmoved_openQuoted {q : Char} (hspace : isSpace q = false) (hne : q ≠ ';') : Scan.Unmoved (openQuoted q) t where
  inert c hc s := if_neg fun h : c = q => ht.notMem hspace hne (h ▸ hc)
  bounded {s n} h := by
    cases s with
    | nil => cases h
    | cons c s =>
      rw [openQuoted] at h
      split_ifs at h
      cases h
      refine Nat.succ_le_succ ?_
      cases hend : closingQuote q s with
      | none => exact le_rfl
      | some k => exact closingQuote_le hend
  step a s := by
    rw [openQuoted, openQuoted]
    split_ifs
    · exact step_open (closingQuote_append_of_notMem (ht.notMem hspace hne) s) rfl
    · exact Or.inl rfl

theorem unmoved_openBlock : Scan.Unmoved openBlock t where
  inert := opensWith_openBlock.inert fun c hc => by
    rintro rfl
    exact ht.notMem (by decide) (by decide) hc
  bounded {s n} h := by
    obtain ⟨u, rfl⟩ := opensWith_openBlock s (by simp [h])
    cases h
    refine Nat.succ_le_succ (Nat.succ_le_succ ?_)
    cases hend : upTo ['*', '/'] u with
    | none => exact le_rfl
    | some k => exact upTo_le hend
  step a s := by
    rcases opens_or_none opensWith_openBlock (ht.notMem (d := '*') (by decide) (by decide)) a s with
      ⟨u, rfl, rfl⟩ | ⟨h, h'⟩
    · have hend := @upTo_append_of_notMem ['*'] t '/' (ht.notMem (by decide) (by decide)) u
      exact step_open hend rfl
    · exact Or.inl (by rw [h, h'])

/-- What is idle behind a text closes no region in it. -/
theorem unmoved_hiddenRegion : Scan.Unmoved hiddenRegion t := by
  refine .of_head regionAt (fun a => ?_) rfl hiddenRegion_cons
  unfold regionAt
  split_ifs
  · exact unmoved_lineComment ht
  · exact unmoved_openBlock ht
  · exact unmoved_openQuoted ht (by decide) (by decide)
  · exact unmoved_openQuoted ht (by decide) (by decide)
  · exact unmoved_dollarQuoted ht

end

theorem visible_blank_append {w : Text} (hw : Blank w) (s : Text) : visible (w ++ s) = w ++ visible s := by
  rw [visible, Scan.mark_append_of_inert (unmoved_hiddenRegion hw.idling).inert, List.map_append, List.map_map, visible]
  congr 1
  exact List.map_id w

theorem visible_append_idle {t : Text} (ht : Idling t) (s : Text) : visible s <+: visible (s ++ t) :=
  ((unmoved_hiddenRegion ht).mark_append s).map _

/-- The statements of a text are those of what is visible of it. -/
theorem length_statements (s : Text) : (statements s).length = (splitStatements (visible s)).length := by
  have hshown : ∀ m : Char × Bool, (if m.2 then m.1 else ' ') = ';' ↔ m = (';', true) := by
    rintro ⟨c, b⟩
    cases b <;> simp
  have hany : (fun m : Char × Bool => m.2 && !isSpace m.1) =
      (fun c => !isSpace c) ∘ fun m : Char × Bool => if m.2 then m.1 else ' ' := by
    funext ⟨c, b⟩
    cases b with
    | true => rfl
    | false => exact (show (!isSpace ' ') = false by decide).symm
  have hbeq : (instBEqProd : BEq (Char × Bool)) = instBEqOfDecidableEq := lawful_beq_subsingleton _ _
  rw [splitStatements_length, visible, Words.countFrom_map hshown, statements, List.length_map, hany, hbeq,
    Words.length_filter_splitOn]

/-! ## The scan -/

theorem stripLiteralsForScan_blank_append {w : Text} (hw : Blank w) (s : Text) :
    stripLiteralsForScan (w ++ s) = w ++ stripLiteralsForScan s := by
  have hquoted : ∀ q, isSpace q = false → q ≠ ';' → Scan.Inert (quoted q) w := fun q hspace hne =>
    (unmoved_quoted hw.idling hspace hne).inert
  simp only [stripLiteralsForScan]
  rw [Scan.replace_append_of_inert (unmoved_lineComment hw.idling).inert,
    Scan.replace_append_of_inert (unmoved_blockComment hw.idling).inert, singleQuoted,
    Scan.replace_append_of_inert (hquoted '\'' (by decide) (by decide)), doubleQuoted,
    Scan.replace_append_of_inert (hquoted '"' (by decide) (by decide)),
    Scan.replace_append_of_inert (unmoved_dollarQuoted hw.idling).inert]

/-- Of an idle stretch behind the text something idle is left in the scan. -/
theorem exists_scan_append {t : Text} (ht : Idling t) (s : Text) :
    ∃ t', Idling t' ∧ stripLiteralsForScan (s ++ t) = stripLiteralsForScan s ++ t' := by
  simp only [stripLiteralsForScan]
  obtain ⟨t₁, h₁, hline⟩ := (unmoved_lineComment ht).replace_append [' '] s
  have ht₁ := ht.suffix h₁
  obtain ⟨t₂, h₂, hblock⟩ := (unmoved_blockComment ht₁).replace_append [' '] _
  have ht₂ := ht₁.suffix h₂
  obtain ⟨t₃, h₃, hsingle⟩ :=
    (unmoved_quoted ht₂ (q := '\'') (by decide) (by decide)).replace_append ['\'', ' ', '\''] _
  have ht₃ := ht₂.suffix h₃
  obtain ⟨t₄, h₄, hdouble⟩ :=
    (unmoved_quoted ht₃ (q := '"') (by decide) (by decide)).replace_append ['"', 'i', 'd', '"'] _
  have ht₄ := ht₃.suffix h₄
  obtain ⟨t₅, h₅, hdollar⟩ := (unmoved_dollarQuoted ht₄).replace_append [' ', ' '] _
  refine ⟨t₅, ht₄.suffix h₅, ?_⟩
  rw [hline, hblock]
  show Scan.replace _ _ (Scan.replace (quoted '"') _ (Scan.replace (quoted '\'') _ _)) = _
  rw [hsingle, hdouble, hdollar]
  rfl

/-! ## Statements -/

theorem splitStatements_of_idle {t : Text} (ht : Idling t) : splitStatements t = [] := by
  have happend := splitStatements_idle_append ht []
  rw [List.append_nil] at happend
  exact happend

theorem splitStatements_append_cons {u : Text} (hu : ';' ∉ u) (v : Text) :
    splitStatements (u ++ ';' :: v) = (if strip u = [] then [] else [strip u]) ++ splitStatements v := by
  rw [splitStatements, Words.splitOn_append_cons hu, List.map_cons, List.filter_cons]
  by_cases hstrip : strip u = []
  · simp [hstrip, splitStatements]
  · simp [hstrip, splitStatements]

/-- What stands idle behind the statements is not read. -/
theorem splitStatements_append_idle (s : Text) {t : Text} (ht : Idling t) :
    splitStatements (s ++ t) = splitStatements s := by
  induction s using Words.pieces_induction (a := ';') with
  | last s hs =>
    by_cases hmem : ';' ∈ t
    · obtain ⟨u, v, rfl, hu⟩ := List.eq_append_cons_of_mem hmem
      have hblank : Blank u := fun c hc =>
        (ht c (List.mem_append_left _ hc)).resolve_right (ne_of_mem_of_not_mem hc hu)
      have hv : Idling v := fun c hc => ht c (List.mem_append_right _ (List.mem_cons_of_mem _ hc))
      rw [← List.append_assoc, splitStatements_append_cons (by simp [hs, hu]), splitStatements_of_idle hv,
        strip_append_blank s hblank, List.append_nil, splitStatements, Words.splitOn_of_notMem hs]
      by_cases hstrip : strip s = []
      · simp [hstrip]
      · simp [hstrip]
    · have hblank : Blank t := fun c hc => (ht c hc).resolve_right (ne_of_mem_of_not_mem hc hmem)
      rw [splitStatements, splitStatements, Words.splitOn_of_notMem hs, Words.splitOn_of_notMem (by simp [hs, hmem]),
        List.map_singleton, List.map_singleton, strip_append_blank s hblank]
  | step u v hu ih =>
    rw [List.append_assoc, List.cons_append, splitStatements_append_cons hu, splitStatements_append_cons hu, ih]

/-! ## What is executed -/

/-- The text returned for execution. -/
def execOf (sql : Text) : Text := dropSemicolons sql.length (strip sql)

def idleChar (c : Char) : Bool := isSpace c || c == ';'

theorem idling_iff {t : Text} : Idling t ↔ ∀ c ∈ t, idleChar c = true := by
  simp [Idling, idleChar]

theorem rdropWhile_append_idle (s : Text) {t : Text} (ht : Idling t) :
    (s ++ t).rdropWhile idleChar = s.rdropWhile idleChar :=
  rdropWhile_append_of_forall s (idling_iff.1 ht)

theorem blank_rtakeWhile (s : Text) : Blank (s.rtakeWhile isSpace) := fun _ hc => List.mem_rtakeWhile_imp hc

theorem rdropWhile_rstrip (s : Text) : (rstrip s).rdropWhile idleChar = s.rdropWhile idleChar := by
  have hsplit : s.rdropWhile isSpace ++ s.rtakeWhile isSpace = s := List.rdropWhile_append_rtakeWhile
  conv_rhs => rw [← hsplit]
  exact (rdropWhile_append_idle _ (blank_rtakeWhile s).idling).symm

/-- Each round of the loop cuts one semicolon and the white space before it. -/
theorem dropSemicolons_rstrip {n : ℕ} {s : Text} (hn : s.length ≤ n) :
    dropSemicolons n (rstrip s) = s.rdropWhile idleChar := by
  induction n generalizing s with
  | zero =>
    obtain rfl := List.eq_nil_of_length_eq_zero (Nat.le_zero.1 hn)
    rfl
  | succ n ih =>
    rw [dropSemicolons, ← rdropWhile_rstrip]
    split_ifs with hlast
    · obtain ⟨u, hu⟩ := List.getLast?_eq_some_iff.1 hlast
      have hle : (u ++ [';']).length ≤ s.length := hu ▸ (List.rdropWhile_prefix isSpace s).length_le
      have hlength : u.length ≤ n := by
        rw [List.length_append, List.length_singleton] at hle
        omega
      rw [hu, List.dropLast_concat, ih hlength, List.rdropWhile_concat_pos _ _ _ (by decide)]
    · refine (List.rdropWhile_eq_self_iff.2 fun hne hidle => ?_).symm
      have hspace := List.rdropWhile_last_not isSpace s hne
      rw [List.getLast?_eq_some_getLast hne, Option.some_inj] at hlast
      rcases Bool.or_eq_true_iff.1 hidle with h | h
      · exact hspace h
      · exact hlast (beq_iff_eq.1 h)

theorem execOf_eq (sql : Text) : execOf sql = (strip sql).rdropWhile idleChar := by
  have hlength := (List.dropWhile_suffix isSpace (l := sql)).length_le
  rw [execOf, strip, dropSemicolons_rstrip hlength, rdropWhile_rstrip]

theorem execOf_append {w t : Text} (hw : Blank w) (ht : Idling t) (sql : Text) :
    execOf (w ++ sql ++ t) = execOf sql := by
  have hfront : (w ++ sql ++ t).dropWhile isSpace = (sql ++ t).dropWhile isSpace := by
    rw [List.append_assoc, List.dropWhile_append_of_pos hw]
  rw [execOf_eq, execOf_eq, strip, strip, rdropWhile_rstrip, rdropWhile_rstrip, hfront]
  by_cases hs : Blank sql
  · have hidle : Idling ((sql ++ t).dropWhile isSpace) := by
      refine Idling.suffix (fun c hc => ?_) (List.dropWhile_suffix isSpace)
      exact (List.mem_append.1 hc).elim (hs.idling c) (ht c)
    rw [List.dropWhile_eq_nil_iff.2 hs]
    exact List.rdropWhile_eq_nil_iff.2 (idling_iff.1 hidle)
  · rw [dropWhile_isSpace_append hs, rdropWhile_append_idle _ ht]

/-- What is executed stands in the text in a blank and idle frame. -/
theorem exists_frame (sql : Text) : ∃ w t, Blank w ∧ Idling t ∧ sql = w ++ execOf sql ++ t := by
  refine ⟨sql.takeWhile isSpace, (sql.dropWhile isSpace).rtakeWhile idleChar,
    fun c hc => List.mem_takeWhile_imp hc, idling_iff.2 fun c hc => List.mem_rtakeWhile_imp hc, ?_⟩
  rw [execOf_eq, strip, rdropWhile_rstrip, List.append_assoc, List.rdropWhile_append_rtakeWhile,
    List.takeWhile_append_dropWhile]

/-- What is executed has no more statements than the text. -/
theorem length_statements_execOf_le (sql : Text) :
    (statements (execOf sql)).length ≤ (splitStatements (visible sql)).length := by
  obtain ⟨w, t, hw, ht, hsql⟩ := exists_frame sql
  obtain ⟨v, hv⟩ := visible_append_idle ht (execOf sql)
  have hvisible : visible sql = w ++ (visible (execOf sql) ++ v) := by
    conv_lhs => rw [hsql, List.append_assoc, visible_blank_append hw, ← hv]
  rw [hvisible, splitStatements_idle_append hw.idling, length_statements, splitStatements_length,
    splitStatements_length]
  exact Words.countFrom_le_append _ _ _ _

/-! ## The verdict -/

theorem splitStatements_scan_append {w t : Text} (hw : Blank w) (ht : Idling t) (sql : Text) :
    splitStatements (stripLiteralsForScan (w ++ sql ++ t)) = splitStatements (stripLiteralsForScan sql) := by
  obtain ⟨t', ht', hscan⟩ := exists_scan_append ht (w ++ sql)
  rw [hscan, splitStatements_append_idle _ ht', stripLiteralsForScan_blank_append hw,
    splitStatements_idle_append hw.idling]

theorem check_congr {U : Unicode} {a b : String} (hexec : execOf a.toList = execOf b.toList)
    (hscan : splitStatements (stripLiteralsForScan a.toList) = splitStatements (stripLiteralsForScan b.toList))
    (r : GuardReport) : check U a = .ok r ↔ check U b = .ok r := by
  unfold execOf at hexec
  rw [check_eq_ok_iff, check_eq_ok_iff, hexec, hscan]

theorem check_append {U : Unicode} {w sql t : String} (hw : Blank w.toList) (ht : Idling t.toList) (r : GuardReport) :
    check U (w ++ sql ++ t) = .ok r ↔ check U sql = .ok r := by
  have htext : (w ++ sql ++ t).toList = w.toList ++ sql.toList ++ t.toList := by
    rw [String.toList_append, String.toList_append]
  refine check_congr ?_ ?_ r
  · rw [htext, execOf_append hw ht]
  · rw [htext, splitStatements_scan_append hw ht]

theorem normalizedSql_of_check {U : Unicode} {sql : String} {r : GuardReport} (h : check U sql = .ok r) :
    r.normalizedSql.toList = execOf sql.toList := by
  obtain ⟨-, stmt, token, -, -, -, -, -, rfl⟩ := check_eq_ok_iff.1 h
  exact String.toList_ofList

/-- To the lexer the text returned for a layered one is at most one statement. -/
theorem length_statements_normalizedSql {U : Unicode} {sql : String} {r : GuardReport} (h : check U sql = .ok r)
    (hlayered : Layered sql.toList) : (statements r.normalizedSql.toList).length ≤ 1 := by
  obtain ⟨hone, -⟩ := scan_of_check h
  rw [normalizedSql_of_check h, ← hone]
  exact (length_statements_execOf_le _).trans hlayered.length_splitStatements_le

/-- What the guard returns is accepted as it stands, and returned again. -/
theorem check_normalizedSql {U : Unicode} {sql : String} {r : GuardReport} (h : check U sql = .ok r) :
    check U r.normalizedSql = .ok r := by
  have hexec := normalizedSql_of_check h
  obtain ⟨w, t, hw, ht, hsql⟩ := exists_frame sql.toList
  have hframe : sql = String.ofList w ++ r.normalizedSql ++ String.ofList t := by
    rw [← String.toList_inj, String.toList_append, String.toList_append, String.toList_ofList, String.toList_ofList,
      hexec]
    exact hsql
  rw [hframe] at h
  exact (check_append (by rwa [String.toList_ofList]) (by rwa [String.toList_ofList]) r).1 h

/-- **Normalisation is stable** under a blank frame with semicolons behind it,
    and on its own result. -/
theorem normalisation_stable (U : Unicode) (w sql t : String) (hw : Blank w.toList) (ht : Idling t.toList) :
    (∀ r, check U (w ++ sql ++ t) = .ok r ↔ check U sql = .ok r) ∧
      ∀ r, check U sql = .ok r → check U r.normalizedSql = .ok r ∧ r.normalizedSql ≠ "" ∧
        r.normalizedSql.toList <+: strip sql.toList ∧
          ∀ c ∈ r.normalizedSql.toList.getLast?, isSpace c = false ∧ c ≠ ';' := by
  refine ⟨check_append hw ht, fun r h => ⟨check_normalizedSql h, ?_⟩⟩
  obtain ⟨hne, stmt, token, -, -, -, -, -, rfl⟩ := check_eq_ok_iff.1 h
  rw [← execOf] at hne
  refine ⟨fun hempty => hne ?_, ?_, fun c hc => ?_⟩
  · exact String.ofList_eq_empty_iff.1 hempty
  · rw [String.toList_ofList, ← execOf, execOf_eq]
    exact List.rdropWhile_prefix _ _
  · rw [String.toList_ofList, ← execOf, List.getLast?_eq_some_getLast hne, Option.mem_some_iff] at hc
    have hidle := List.rdropWhile_last_not idleChar (strip sql.toList) (execOf_eq _ ▸ hne)
    simp only [← execOf_eq, hc, idleChar] at hidle
    simpa using hidle

theorem normalisation_stable_select : (∀ r, check Unicode.ascii ("\n" ++ "SELECT 'a;' -- b" ++ " ; ") = .ok r ↔
    check Unicode.ascii "SELECT 'a;' -- b" = .ok r) ∧
      ∀ r, check Unicode.ascii "SELECT 'a;' -- b" = .ok r → check Unicode.ascii r.normalizedSql = .ok r ∧
        r.normalizedSql ≠ "" ∧ r.normalizedSql.toList <+: strip "SELECT 'a;' -- b".toList ∧
          ∀ c ∈ r.normalizedSql.toList.getLast?, isSpace c = false ∧ c ≠ ';' :=
  normalisation_stable Unicode.ascii "\n" "SELECT 'a;' -- b" " ; " (List.all_eq_true.1 (by decide))
    (idling_iff.2 (List.all_eq_true.1 (by decide)))

end RoboMeta
