import PatchSynth.Proofs.Patch.Line

/-!
This module contains the replacement of the tokens of a line by other ones, with all delimiters left
in their places, and the way back from lines to a text.
-/

namespace PatchSynth

def IsToken (token : List Char) : Prop :=
  token ≠ [] ∧ ∀ c ∈ token, isDelimiter c = false

theorem IsToken.not_mem {token : List Char} (h : IsToken token) {c : Char}
    (hc : isDelimiter c = true) : c ∉ token := by
  intro hmem
  have hother := h.2 c hmem
  rw [hc] at hother
  cases hother

def retokenFrom (inside : Bool) : List Char → List (List Char) → List Char
  | [], _ => []
  | c :: rest, news =>
    if isDelimiter c then
      c :: retokenFrom false rest news
    else if inside then
      retokenFrom true rest news
    else
      news.headD [] ++ retokenFrom true rest news.tail

def retoken (text : List Char) (news : List (List Char)) : List Char :=
  retokenFrom false text news

theorem retoken_of_gap {c : Char} (hc : isDelimiter c = true) (rest : List Char)
    (news : List (List Char)) : retoken (c :: rest) news = c :: retoken rest news := by
  rw [retoken, retokenFrom, if_pos hc]
  rfl

theorem retokenFrom_append {run : List Char} (hrun : ∀ c ∈ run, isDelimiter c = false)
    (rest : List Char) (news : List (List Char)) :
    retokenFrom true (run ++ rest) news = retokenFrom true rest news := by
  induction run with
  | nil => rfl
  | cons c run ih =>
    rw [List.forall_mem_cons] at hrun
    obtain ⟨hc, hrun⟩ := hrun
    rw [List.cons_append, retokenFrom, hc, if_neg (by simp), if_pos rfl, ih hrun]

theorem retoken_of_run {run rest : List Char} (hne : run ≠ [])
    (hrun : ∀ c ∈ run, isDelimiter c = false) (hend : rest.head?.all isDelimiter = true)
    (new : List Char) (news : List (List Char)) :
    retoken (run ++ rest) (new :: news) = new ++ retoken rest news := by
  -- A token ends where a delimiter or the end of the text stands.
  have hrest : retokenFrom true rest news = retoken rest news := by
    cases rest with
    | nil => rfl
    | cons c rest =>
      have hc : isDelimiter c = true := by simpa using hend
      rw [retoken_of_gap hc, retokenFrom, if_pos hc]
      rfl
  cases run with
  | nil => exact absurd rfl hne
  | cons c run =>
    rw [List.forall_mem_cons] at hrun
    obtain ⟨hc, hrun⟩ := hrun
    rw [List.cons_append, retoken, retokenFrom, hc, if_neg (by simp), if_neg (by simp),
      List.headD_cons, List.tail_cons, retokenFrom_append hrun, hrest]

theorem head?_retoken {rest : List Char} (hend : rest.head?.all isDelimiter = true)
    (news : List (List Char)) : (retoken rest news).head?.all isDelimiter = true := by
  cases rest with
  | nil => rfl
  | cons c rest =>
    have hc : isDelimiter c = true := by simpa using hend
    rw [retoken_of_gap hc]
    simpa using hc

theorem tokens_retoken {text : List Char} {news : List (List Char)}
    (hlength : news.length = (tokens text).length) (hnews : ∀ new ∈ news, IsToken new) :
    tokens (retoken text news) = news := by
  have hruns := runs_tokens text
  generalize tokens text = runs at hruns hlength
  induction hruns generalizing news with
  | nil =>
    rw [List.length_eq_zero_iff.1 hlength]
    rfl
  | gap hc _ ih => rw [retoken_of_gap hc, tokens_of_gap hc, ih hnews hlength]
  | run hne hrun hend _ ih =>
    cases news with
    | nil => cases hlength
    | cons new news =>
      rw [List.forall_mem_cons] at hnews
      obtain ⟨⟨hnew, hchars⟩, hnews⟩ := hnews
      rw [retoken_of_run hne hrun hend, tokens_of_run hnew hchars (head?_retoken hend news),
        ih hnews (Nat.succ.inj hlength)]

theorem not_mem_retoken {c : Char} {text : List Char} {news : List (List Char)}
    (htext : c ∉ text) (hnews : ∀ new ∈ news, c ∉ new) : c ∉ retoken text news := by
  suffices hfrom : ∀ inside, c ∉ retokenFrom inside text news from hfrom false
  induction text generalizing news with
  | nil => exact fun _ => List.not_mem_nil
  | cons d text ih =>
    rw [List.mem_cons, not_or] at htext
    obtain ⟨hd, htext⟩ := htext
    intro inside
    unfold retokenFrom
    split
    · rw [List.mem_cons, not_or]
      exact ⟨hd, ih htext hnews false⟩
    · split
      · exact ih htext hnews true
      · rw [List.mem_append, not_or]
        cases news with
        | nil => exact ⟨List.not_mem_nil, ih htext hnews true⟩
        | cons new news =>
          rw [List.forall_mem_cons] at hnews
          exact ⟨hnews.1, ih htext hnews.2 true⟩

def OpensLine (token : List Char) : Prop :=
  token.head?.any (fun c => !isBlank c && c != '#') = true

instance (token : List Char) : Decidable (OpensLine token) :=
  inferInstanceAs (Decidable (_ = true))

theorem isComment_eq (line : List Char) :
    isComment line = (line.find? fun c => !isBlank c).all (· == '#') := by
  have hfront : ∀ (c : Char) (rest : List Char), isBlank c = false →
      (trimEnd (c :: rest)).head? = some c := by
    intro c rest hc
    rw [trimEnd, List.reverse_cons, List.dropWhile_append]
    split
    · simp [hc]
    · simp
  rw [isComment, trim, List.find?_eq_head?_dropWhile_not]
  simp only [Bool.not_not]
  cases hdrop : line.dropWhile isBlank with
  | nil => rfl
  | cons c rest =>
    have hc : isBlank c = false := by
      have hhead := List.head?_dropWhile_not isBlank line
      rw [hdrop] at hhead
      exact hhead
    rw [hfront c rest hc]
    rfl

theorem not_skipped_of_tokens {line first : List Char} {rest : List (List Char)}
    (h : tokens line = first :: rest) (hfirst : OpensLine first) : ¬ Skipped line := by
  rw [← isComment_iff, isComment_eq, Bool.not_eq_true]
  generalize hruns : first :: rest = runs at h
  have hline := runs_iff.2 h.symm
  clear h
  induction hline with
  | nil => cases hruns
  | @gap c text _ hc _ ih =>
    -- A delimiter that is no blank makes no comment either.
    cases hblank : isBlank c with
    | true =>
      rw [List.find?_cons, hblank]
      exact ih hruns
    | false =>
      have hne : (c == '#') = false := by
        rw [beq_eq_false_iff_ne]
        rintro rfl
        cases hc
      rw [List.find?_cons, hblank]
      exact hne
  | run hne _ _ _ _ =>
    cases hruns
    cases first with
    | nil => exact absurd rfl hne
    | cons c first =>
      obtain ⟨hblank, hc⟩ : isBlank c = false ∧ c ≠ '#' := by simpa [OpensLine] using hfirst
      rw [List.cons_append, List.find?_cons, hblank]
      simpa using hc

theorem linesFrom_append {line : List Char} (h : '\n' ∉ line) (current rest : List Char) :
    linesFrom current (line ++ rest) = linesFrom (line.reverse ++ current) rest := by
  induction line generalizing current with
  | nil => rfl
  | cons c line ih =>
    rw [List.mem_cons, not_or] at h
    obtain ⟨hc, h⟩ := h
    rw [List.cons_append, linesFrom, if_neg (by simpa using Ne.symm hc), ih h, List.reverse_cons,
      List.append_assoc]
    rfl

theorem not_mem_of_mem_lines {text line : List Char} (h : line ∈ lines text) : '\n' ∉ line := by
  suffices hfrom : ∀ current : List Char, '\n' ∉ current → line ∈ linesFrom current text →
      '\n' ∉ line from hfrom [] List.not_mem_nil h
  clear h
  induction text with
  | nil =>
    intro current hcurrent hmem
    unfold linesFrom at hmem
    split at hmem
    · cases hmem
    · rw [List.mem_singleton.1 hmem, List.mem_reverse]
      exact hcurrent
  | cons c text ih =>
    intro current hcurrent hmem
    unfold linesFrom at hmem
    split at hmem
    next =>
      obtain rfl | hmem := List.mem_cons.1 hmem
      · rw [List.mem_reverse]
        split
        · exact fun htail => hcurrent (List.mem_of_mem_tail htail)
        · exact hcurrent
      · exact ih [] List.not_mem_nil hmem
    next hc =>
      refine ih (c :: current) ?_ hmem
      rw [List.mem_cons, not_or]
      exact ⟨fun heq => hc (by simp [← heq]), hcurrent⟩

theorem exists_lines_eq {all : List (List Char)} (h : ∀ line ∈ all, '\n' ∉ line) :
    ∃ text, lines text = all := by
  -- With a carriage return before each line feed, one at the end of a line stays there.
  refine ⟨all.flatMap (· ++ ['\r', '\n']), ?_⟩
  induction all with
  | nil => rfl
  | cons line all ih =>
    rw [List.forall_mem_cons] at h
    obtain ⟨hline, h⟩ := h
    rw [List.flatMap_cons, List.append_assoc, lines, linesFrom_append hline, List.append_nil,
      List.cons_append, linesFrom, if_neg (by decide), List.cons_append, linesFrom,
      if_pos (by decide)]
    simp only [List.head?_cons, BEq.rfl, if_true, List.nil_append, List.tail_cons,
      List.reverse_reverse]
    rw [← lines, ih h]

end PatchSynth
