import Mathlib.Data.List.Infix
import StackMachine.Object.Methods
import StackMachine.Proofs.PlainData
import StackMachine.Proofs.SequenceViews
/-!
# Pieces and words of a text

A separator cuts a text at its first occurrence, then at the first one in what is left, and so on
(`Text.Cuts`).  Occurrences that overlap the last cut are passed over with it, so in `"aaa"` the
separator `"aa"` occurs twice and cuts once.  This says what the pieces are, and all else follows
from it: there is at least one piece, the separator is in none of them, and with the separator
between them they are the text again.

The words of a text are its maximal runs of characters other than white space, in their order
(`Text.IsRun`).  A run is told by what stands in front of it, since the same word may occur many
times.

The main statement is `split_undone_by_join`.
-/

namespace StackMachine

namespace Text

variable {separator text piece rest before after word cs : List Char}
  {pieces pieces' : List (List Char)}

/-! ## Pieces -/

/-- A text is cut at the first occurrence of a separator, and what stands behind it likewise.  No
occurrence begins before the end of the first piece. -/
inductive Cuts (separator : List Char) : List Char → List (List Char) → Prop
  | last {piece : List Char} (hnone : ¬separator <:+: piece) : Cuts separator piece [piece]
  | cut {piece rest : List Char} {pieces : List (List Char)}
      (hfirst : ∀ before after, before ++ separator ++ after = piece ++ separator ++ rest →
        piece.length ≤ before.length)
      (hrest : Cuts separator rest pieces) :
      Cuts separator (piece ++ separator ++ rest) (piece :: pieces)

lemma Cuts.ne_nil (hcuts : Cuts separator text pieces) : pieces ≠ [] := by
  cases hcuts <;> exact List.cons_ne_nil _ _

/-- The separator is in no piece. -/
lemma Cuts.not_infix (hseparator : separator ≠ []) (hcuts : Cuts separator text pieces) :
    ∀ piece ∈ pieces, ¬separator <:+: piece := by
  induction hcuts with
  | last hnone => exact List.forall_mem_singleton.2 hnone
  | @cut piece rest pieces hfirst hrest ih =>
    refine List.forall_mem_cons.2 ⟨?_, ih⟩
    rintro ⟨before, after, hpiece⟩
    have hle := hfirst before (after ++ separator ++ rest) (by simp [← hpiece])
    have hlength := congrArg List.length hpiece
    have hpos := List.length_pos_iff.2 hseparator
    simp only [List.length_append] at hlength
    omega

/-- The pieces make up the text. -/
lemma Cuts.join_eq (hcuts : Cuts separator text pieces) : join separator pieces = text := by
  induction hcuts with
  | last => rfl
  | @cut piece rest pieces _ hrest ih =>
    obtain ⟨next, others, rfl⟩ := List.exists_cons_of_ne_nil hrest.ne_nil
    rw [join, ih]
    nofun

/-- A text is cut in one way only. -/
lemma Cuts.unique (hcuts : Cuts separator text pieces) (hcuts' : Cuts separator text pieces') :
    pieces = pieces' := by
  induction hcuts generalizing pieces' with
  | last hnone =>
    cases hcuts' with
    | last => rfl
    | cut => exact absurd ⟨_, _, rfl⟩ hnone
  | @cut piece rest pieces hfirst hrest ih =>
    generalize htext : piece ++ separator ++ rest = text at hcuts'
    cases hcuts' with
    | last hnone => exact absurd ⟨_, _, htext⟩ hnone
    | @cut piece' rest' pieces' hfirst' hrest' =>
      have hlength : piece.length = piece'.length :=
        Nat.le_antisymm (hfirst _ _ htext.symm) (hfirst' _ _ htext)
      rw [List.append_assoc, List.append_assoc] at htext
      obtain ⟨rfl, hbehind⟩ := List.append_inj htext hlength
      rw [ih (List.append_cancel_left hbehind ▸ hrest')]

/-- Passing over characters is dropping them. -/
lemma splitFrom_skip (skip : Nat) (piece cs : List Char) :
    splitFrom separator skip piece cs = splitFrom separator 0 piece (cs.drop skip) := by
  induction cs generalizing skip with
  | nil => simp [splitFrom]
  | cons c cs ih =>
    cases skip with
    | zero => rfl
    | succ skip => rw [splitFrom, ih, List.drop_succ_cons]

/-- Where the separator comes next, a piece ends. -/
lemma splitFrom_append (hseparator : separator ≠ []) (piece rest : List Char) :
    splitFrom separator 0 piece (separator ++ rest) =
      piece.reverse :: splitFrom separator 0 [] rest := by
  obtain ⟨c, cs, rfl⟩ := List.exists_cons_of_ne_nil hseparator
  have hprefix : (c :: cs).isPrefixOf (c :: (cs ++ rest)) = true :=
    List.isPrefixOf_iff_prefix.2 (List.prefix_append (c :: cs) rest)
  rw [List.cons_append, splitFrom, if_pos hprefix, splitFrom_skip]
  simp

/-- What has been begun goes up to the first occurrence of the separator.  The induction is on the
number of characters that are left. -/
lemma cuts_splitFrom (hseparator : separator ≠ []) (piece cs : List Char)
    (hnone : ∀ before after, before ++ separator ++ after = piece.reverse ++ cs →
      piece.length ≤ before.length) :
    Cuts separator (piece.reverse ++ cs) (splitFrom separator 0 piece cs) := by
  induction hlength : cs.length using Nat.strongRecOn generalizing piece cs with | ind n ih => ?_
  by_cases hprefix : separator <+: cs
  · obtain ⟨rest, rfl⟩ := hprefix
    have hpos := List.length_pos_iff.2 hseparator
    rw [List.length_append] at hlength
    rw [splitFrom_append hseparator, ← List.append_assoc]
    refine .cut (fun before after h => ?_) (ih rest.length (by omega) [] rest ?_ rfl)
    · rw [List.append_assoc piece.reverse] at h
      rw [List.length_reverse]
      exact hnone before after h
    · exact fun before _ _ => Nat.zero_le before.length
  cases cs with
  | nil =>
    rw [List.append_nil] at hnone ⊢
    refine .last ?_
    rintro ⟨before, after, hpiece⟩
    have hle := hnone before after hpiece
    have hlengths := congrArg List.length hpiece
    have hpos := List.length_pos_iff.2 hseparator
    simp only [List.length_append, List.length_reverse] at hlengths
    omega
  | cons c cs =>
    have hstep : splitFrom separator 0 piece (c :: cs) = splitFrom separator 0 (c :: piece) cs := by
      rw [splitFrom, if_neg (fun h => hprefix (List.isPrefixOf_iff_prefix.1 h))]
    have htext : piece.reverse ++ c :: cs = (c :: piece).reverse ++ cs := by simp
    rw [hstep, htext]
    refine ih cs.length (by simp [← hlength]) (c :: piece) cs (fun before after h => ?_) rfl
    rw [← htext] at h
    have hle := hnone before after h
    -- Here the separator does not come next.
    have hne : piece.length ≠ before.length := by
      intro heq
      rw [List.append_assoc] at h
      exact hprefix ⟨after, (List.append_inj h (by simp [heq])).2⟩
    rw [List.length_cons]
    omega

/-- **Splitting** is cutting at first occurrences. -/
theorem cuts_iff (hseparator : separator ≠ []) :
    Cuts separator text pieces ↔ pieces = split separator text := by
  have hsplit : Cuts separator text (split separator text) :=
    cuts_splitFrom hseparator [] text fun before _ _ => Nat.zero_le before.length
  exact ⟨fun hcuts => hcuts.unique hsplit, fun heq => heq ▸ hsplit⟩

/-! ## Words -/

/-- A maximal run of characters other than white space, and what stands on its two sides. -/
structure IsRun (text before word after : List Char) : Prop where
  text_eq : text = before ++ word ++ after
  ne_nil : word ≠ []
  notBlank : ∀ c ∈ word, isBlank c = false
  begins : ∀ c ∈ before.getLast?, isBlank c = true
  ends : ∀ c ∈ after.head?, isBlank c = true

lemma takeWhile_of_head? (hrest : ∀ c ∈ rest.head?, isBlank c = true) :
    rest.takeWhile (fun c => !isBlank c) = [] := by
  cases rest with
  | nil => rfl
  | cons c cs => exact List.takeWhile_cons_of_neg (by simp [hrest c rfl])

variable {front letters : List Char}

/-- Within letters that stand between white space no other run begins. -/
lemma IsRun.eq_of_between (hrun : IsRun (front ++ letters ++ rest) before word after)
    (hletters : ∀ c ∈ letters, isBlank c = false) (hrest : ∀ c ∈ rest.head?, isBlank c = true)
    (hfront : front.length ≤ before.length) (hbehind : before.length ≤ (front ++ letters).length) :
    before = front ∧ word = letters := by
  have htext := hrun.text_eq
  obtain ⟨passed, rfl⟩ : front <+: before :=
    List.prefix_of_prefix_length_le ⟨letters ++ rest, by rw [← List.append_assoc, htext]⟩
      ⟨word ++ after, by rw [List.append_assoc]⟩ hfront
  simp only [List.append_assoc, List.append_cancel_left_eq] at htext
  simp only [List.length_append] at hbehind
  have hpassed : passed <+: letters :=
    List.prefix_of_prefix_length_le ⟨word ++ after, rfl⟩ ⟨rest, htext⟩ (by omega)
  cases hlast : passed.getLast? with
  | none =>
    obtain rfl := List.getLast?_eq_none_iff.1 hlast
    rw [List.nil_append] at htext
    refine ⟨List.append_nil front,
      (append_inj_of_takeWhile (p := fun c => !isBlank c) ?_ ?_ ?_ ?_ htext).1.symm⟩
    · exact fun c hc => by simp [hletters c hc]
    · exact fun c hc => by simp [hrun.notBlank c hc]
    · exact takeWhile_of_head? hrest
    · exact takeWhile_of_head? hrun.ends
  | some c =>
    have hc : c ∈ letters := hpassed.subset (List.mem_of_getLast? hlast)
    have hblank := hrun.begins c (by rw [List.getLast?_append, hlast]; rfl)
    rw [hletters c hc] at hblank
    cases hblank

/-- Letters between white space, with what stands in front of them, unless there are none. -/
def letterRun (front letters : List Char) : List (List Char × List Char) :=
  if letters = [] then [] else [(front, letters)]

lemma mem_letterRun_iff (rest before word : List Char)
    (hfront : ∀ c ∈ front.getLast?, isBlank c = true) (hletters : ∀ c ∈ letters, isBlank c = false)
    (hrest : ∀ c ∈ rest.head?, isBlank c = true) :
    (before, word) ∈ letterRun front letters ↔
      front.length ≤ before.length ∧ before.length ≤ (front ++ letters).length ∧
        ∃ after, IsRun (front ++ letters ++ rest) before word after := by
  constructor
  · unfold letterRun
    split
    · nofun
    · next hne =>
      intro hmem
      cases List.mem_singleton.1 hmem
      exact ⟨Nat.le_refl _, List.length_append ▸ Nat.le_add_right _ _, rest, rfl, hne, hletters,
        hfront, hrest⟩
  · rintro ⟨hle, hbehind, after, hrun⟩
    obtain ⟨rfl, rfl⟩ := hrun.eq_of_between hletters hrest hle hbehind
    rw [letterRun, if_neg hrun.ne_nil]
    exact List.mem_cons_self

lemma IsRun.length_le (hrun : IsRun text before word after) : before.length ≤ text.length := by
  rw [hrun.text_eq, List.append_assoc, List.length_append]
  exact Nat.le_add_right _ _

/-- The words from some place on, each with what stands in front of it, are the runs that begin
there or later; the letters that have been begun belong to the first one.  The induction is on the
characters that are left. -/
lemma exists_runs (front letters cs : List Char) (hfront : ∀ c ∈ front.getLast?, isBlank c = true)
    (hletters : ∀ c ∈ letters, isBlank c = false) :
    ∃ runs : List (List Char × List Char),
      wordsFrom letters cs = runs.map Prod.snd ∧
      runs.Pairwise (fun run next => run.1.length < next.1.length) ∧
      ∀ before word, (before, word) ∈ runs ↔ front.length ≤ before.length ∧
        ∃ after, IsRun (front ++ letters.reverse ++ cs) before word after := by
  induction cs generalizing front letters with
  | nil =>
    have hbegun : ∀ c ∈ letters.reverse, isBlank c = false := by simpa using hletters
    refine ⟨letterRun front letters.reverse, ?_, ?_, fun before word => ?_⟩
    · cases letters <;> simp [wordsFrom, letterRun]
    · unfold letterRun
      split <;> simp
    · rw [mem_letterRun_iff [] before word hfront hbegun nofun]
      refine and_congr_right fun _ => and_iff_right_of_imp fun ⟨after, hrun⟩ => ?_
      simpa using hrun.length_le
  | cons c cs ih =>
    by_cases hc : isBlank c = true
    · have hbegun : ∀ c ∈ letters.reverse, isBlank c = false := by simpa using hletters
      have hmem := fun before word =>
        mem_letterRun_iff (c :: cs) before word hfront hbegun (by simp [hc])
      obtain ⟨runs, hwords, hordered, hruns⟩ :=
        ih (front ++ letters.reverse ++ [c]) [] (by simp [hc]) nofun
      simp only [List.reverse_nil, List.append_nil, List.append_assoc _ [c], List.singleton_append,
        @List.length_append _ _ [c], List.length_singleton] at hruns
      refine ⟨letterRun front letters.reverse ++ runs, ?_, ?_, fun before word => ?_⟩
      · rw [List.map_append, ← hwords, wordsFrom, if_pos hc]
        cases letters <;> simp [letterRun]
      · refine List.pairwise_append.2 ⟨?_, hordered, fun run hrun next hnext => ?_⟩
        · unfold letterRun
          split <;> simp
        · exact Nat.lt_of_le_of_lt ((hmem _ _).1 hrun).2.1 ((hruns _ _).1 hnext).1
      · rw [List.mem_append, hmem, hruns]
        have hle : front.length ≤ (front ++ letters.reverse).length := by simp
        constructor
        · rintro (⟨hfrom, -, hrun⟩ | ⟨hfrom, hrun⟩)
          · exact ⟨hfrom, hrun⟩
          · exact ⟨by omega, hrun⟩
        · rintro ⟨hfrom, hrun⟩
          obtain hwithin | hbehind := Nat.lt_or_ge (front ++ letters.reverse).length before.length
          · exact .inr ⟨hwithin, hrun⟩
          · exact .inl ⟨hfrom, hbehind, hrun⟩
    · obtain ⟨runs, hwords, hordered, hruns⟩ :=
        ih front (c :: letters) hfront (by simpa [hc] using hletters)
      refine ⟨runs, ?_, hordered, fun before word => ?_⟩
      · rw [wordsFrom, if_neg hc, hwords]
      · simpa using hruns before word

/-- **Words** are the maximal runs of a text, in their order. -/
theorem exists_words_eq (text : List Char) : ∃ runs : List (List Char × List Char),
    words text = runs.map Prod.snd ∧
    runs.Pairwise (fun run next => run.1.length < next.1.length) ∧
    ∀ before word, (before, word) ∈ runs ↔ ∃ after, IsRun text before word after := by
  obtain ⟨runs, hwords, hordered, hruns⟩ := exists_runs [] [] text nofun nofun
  exact ⟨runs, hwords, hordered, fun before word => by simpa using hruns before word⟩

end Text

/-! ## Lists of strings -/

namespace Value

/-- The value is a list of strings with these texts. -/
def ListsTexts (h : Heap) (texts : List String) : Value → Prop
  | .list r => List.Forall₂ (fun v text => ∃ id, v = .str id text) (h.list r).toList texts
  | _ => False

end Value

namespace Method

variable {h : Heap} {v : Value} {texts : List String}

/-- Strings are made for texts, and nothing else happens. -/
lemma mapM_str_ok (parts : List (List Char)) (h : Heap) :
    ∃ vs n, parts.mapM (fun part => HeapM.str (String.ofList part)) h =
        .ok vs { h with nextId := n } ∧
      List.Forall₂ (fun v text => ∃ id, v = Value.str id text) vs (parts.map String.ofList) := by
  induction parts generalizing h with
  | nil => exact ⟨[], h.nextId, rfl, .nil⟩
  | cons part parts ih =>
    obtain ⟨vs, n, hvs, hshown⟩ := ih { h with nextId := h.nextId + 1 }
    have hfirst : HeapM.str (String.ofList part) h =
        .ok (.str h.nextId (String.ofList part)) { h with nextId := h.nextId + 1 } := rfl
    refine ⟨.str h.nextId (.ofList part) :: vs, n, ?_, .cons ⟨h.nextId, rfl⟩ hshown⟩
    rw [List.mapM_cons]
    simp only [HeapM.bind_apply, hfirst, hvs, HeapM.pure_apply]

lemma listOfTexts_ok (parts : List (List Char)) (h : Heap) :
    ∃ r h', listOfTexts parts h = .ok (.list r) h' ∧
      (Value.list r).ListsTexts h' (parts.map String.ofList) := by
  obtain ⟨vs, n, hvs, hshown⟩ := mapM_str_ok parts h
  let h' : Heap := { h with nextId := n }
  refine ⟨(h'.newList vs.toArray).1, (h'.newList vs.toArray).2, ?_, ?_⟩
  · simp only [listOfTexts, HeapM.bind_apply, hvs, HeapM.list_apply, h']
  · simpa [Value.ListsTexts, Heap.list, Heap.newList] using hshown

/-- The texts of strings are read off, from whatever place they are counted. -/
lemma textsFrom_texts {vs : List Value}
    (hvs : List.Forall₂ (fun v text => ∃ id, v = Value.str id text) vs texts) (place : Nat) :
    textsFrom place vs = .ok (texts.map String.toList) := by
  induction hvs generalizing place with
  | nil => rfl
  | cons hv _ ih =>
    obtain ⟨id, rfl⟩ := hv
    simp [textsFrom, ih, Except.map]

/-- Joining a list of strings joins their texts. -/
lemma strJoin_ok {r : Ref .list} (hr : (Value.list r).ListsTexts h texts) (id : Nat)
    (separator : String) :
    ∃ id' h', Method.strJoin.call (.str id separator) [.list r] h = .ok
      (.str id' (.ofList (Text.join separator.toList (texts.map String.toList)))) h' := by
  obtain ⟨vs, h', hvs, hshown⟩ := Value.elements_of_items (v := .list r) (h := h) rfl
  obtain rfl := Item.forall₂_shownBy_values.1 hshown
  refine ⟨h'.nextId, { h' with nextId := h'.nextId + 1 }, ?_⟩
  simp [call, callOnText, oneArgument, hvs, textsFrom_texts hr]
  rfl

/-- Splitting at a separator makes a list of the pieces. -/
lemma strSplit_ok {separator : String} (hseparator : separator ≠ "") (id id' : Nat) (s : String)
    (h : Heap) :
    ∃ r h', Method.strSplit.call (.str id s) [.str id' separator] h = .ok (.list r) h' ∧
      (Value.list r).ListsTexts h'
        ((Text.split separator.toList s.toList).map String.ofList) := by
  obtain ⟨r, h', hlist, htexts⟩ := listOfTexts_ok (Text.split separator.toList s.toList) h
  refine ⟨r, h', ?_, htexts⟩
  simp [call, callOnText, optionalArgument, hseparator, hlist]

/-- Without a separator a list of the words is made. -/
lemma strSplit_words_ok {args : List Value} (hargs : args ∈ [[], [Value.none]]) (id : Nat)
    (s : String) (h : Heap) :
    ∃ r h', Method.strSplit.call (.str id s) args h = .ok (.list r) h' ∧
      (Value.list r).ListsTexts h' ((Text.words s.toList).map String.ofList) := by
  obtain ⟨r, h', hlist, htexts⟩ := listOfTexts_ok (Text.words s.toList) h
  refine ⟨r, h', ?_, htexts⟩
  simp only [List.mem_cons, List.not_mem_nil, or_false] at hargs
  obtain rfl | rfl := hargs <;> simp [call, callOnText, optionalArgument, hlist]

end Method

/-- **Splitting and joining.**  Splitting a string at a separator makes a list of the pieces that
cuts at first occurrences leave.  There is at least one, the separator is in none of them, and
joined with it they are the string again.  Splitting without a separator makes a list of the words:
the maximal runs of characters other than white space, in the order in which they stand. -/
theorem split_undone_by_join {separator : String} (hseparator : separator ≠ "") (s : String)
    (i j : Nat) (h : Heap) :
    (∃ r h' pieces,
      Method.strSplit.call (.str i s) [.str j separator] h = .ok (.list r) h' ∧
      (Value.list r).ListsTexts h' pieces ∧ pieces ≠ [] ∧
      (∀ piece ∈ pieces, ¬separator.toList <:+: piece.toList) ∧
      (∀ parts, Text.Cuts separator.toList s.toList parts ↔ parts = pieces.map String.toList) ∧
      ∀ k, ∃ l h'', Method.strJoin.call (.str k separator) [.list r] h' = .ok (.str l s) h'') ∧
    ∀ args ∈ [[], [Value.none]], ∃ r h', ∃ runs : List (List Char × List Char),
      Method.strSplit.call (.str i s) args h = .ok (.list r) h' ∧
      (Value.list r).ListsTexts h' (runs.map fun run => .ofList run.2) ∧
      runs.Pairwise (fun run next => run.1.length < next.1.length) ∧
      ∀ before word, (before, word) ∈ runs ↔ ∃ after, Text.IsRun s.toList before word after := by
  have hne : separator.toList ≠ [] := by simpa using hseparator
  constructor
  · obtain ⟨r, h', hsplit, htexts⟩ := Method.strSplit_ok hseparator i j s h
    have hcuts := (Text.cuts_iff hne).2 (rfl : Text.split separator.toList s.toList = _)
    have hparts : ((Text.split separator.toList s.toList).map String.ofList).map String.toList =
        Text.split separator.toList s.toList := by simp
    refine ⟨r, h', _, hsplit, htexts, by simpa using hcuts.ne_nil, ?_, fun parts => ?_,
      fun k => ?_⟩
    · intro piece hpiece
      exact hcuts.not_infix hne _ (hparts ▸ List.mem_map_of_mem hpiece)
    · rw [hparts, Text.cuts_iff hne]
    · obtain ⟨l, h'', hjoin⟩ := Method.strJoin_ok htexts k separator
      rw [hparts, hcuts.join_eq, String.ofList_toList] at hjoin
      exact ⟨l, h'', hjoin⟩
  · intro args hargs
    obtain ⟨r, h', hsplit, htexts⟩ := Method.strSplit_words_ok hargs i s h
    obtain ⟨runs, hwords, hordered, hruns⟩ := Text.exists_words_eq s.toList
    rw [hwords, List.map_map] at htexts
    exact ⟨r, h', runs, hsplit, htexts, hordered, hruns⟩

/-- A separator that overlaps itself: of its two occurrences in `"aaa"` the first one cuts. -/
theorem split_undone_by_join_of_overlapping : ∃ r h' l h'',
    Method.strSplit.call (.str 0 "aaa") [.str 1 "aa"] .empty = .ok (.list r) h' ∧
    (Value.list r).ListsTexts h' ["", "a"] ∧
    Method.strJoin.call (.str 1 "aa") [.list r] h' = .ok (.str l "aaa") h'' := by
  obtain ⟨⟨r, h', pieces, hsplit, htexts, -, -, hcuts, hjoin⟩, -⟩ :=
    @split_undone_by_join "aa" (by decide) "aaa" 0 1 .empty
  have hpieces : pieces = ["", "a"] := by
    apply List.map_injective_iff.2 fun _ _ => String.toList_injective
    rw [← (hcuts [[], ['a']]).1 ((Text.cuts_iff (by decide)).2 rfl)]
    rfl
  obtain ⟨l, h'', hjoined⟩ := hjoin 1
  exact ⟨r, h', l, h'', hsplit, hpieces ▸ htexts, hjoined⟩

end StackMachine
