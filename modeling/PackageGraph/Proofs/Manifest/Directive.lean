import Mathlib.Data.List.Chain
import PackageGraph.Manifest
import PackageGraph.Proofs.Text.Split
import PackageGraph.Proofs.Text.Trim

/-!
# The directive of a manifest

What a manifest has to look like to name a module (`Manifest.Declares`), said without the scanner:
lines that are blank without their comments, then a line with the keyword, a path and perhaps a
comment, then anything. The scanner finds exactly the path of such a text, and no path in any other
text (`Manifest.directive?_exact`).

A comment begins at the first `//` of its line, in quotes or not. So no path has one in it
(`Manifest.IsPath`), and a path that ends in a slash has to be kept apart from a comment behind it,
by a blank or by a quote.
-/

namespace PackageGraph.Manifest

open Text

/-! ### Comments -/

/-- No comment begins in the text. -/
def IsBare (cs : List Char) : Prop := ∀ before after, cs ≠ before ++ '/' :: '/' :: after

/-- Nothing, or a comment. -/
def IsComment (cs : List Char) : Prop := cs = [] ∨ ∃ after, cs = '/' :: '/' :: after

/-- The body is the line without its comment. A slash in front of the comment would belong to it. -/
def IsBody (line body : List Char) : Prop :=
  IsBare body ∧ ∃ comment, line = body ++ comment ∧ IsComment comment ∧
    (comment = [] ∨ body.getLast? ≠ some '/')

/-- A text is free of comments exactly if no slash follows a slash. -/
theorem isBare_iff_isChain {cs : List Char} :
    IsBare cs ↔ cs.IsChain fun a b => ¬(a = '/' ∧ b = '/') := by
  rw [List.isChain_iff_forall_rel_of_append_cons_cons]
  constructor
  · rintro h a b before after rfl ⟨rfl, rfl⟩
    exact h before after rfl
  · rintro h before after rfl
    exact h rfl ⟨rfl, rfl⟩

/-- A comment begins in joined texts only in one of them, or where a slash meets a slash. -/
theorem isBare_append {cs cs' : List Char} :
    IsBare (cs ++ cs') ↔
      IsBare cs ∧ IsBare cs' ∧ ¬(cs.getLast? = some '/' ∧ cs'.head? = some '/') := by
  simp only [isBare_iff_isChain, List.isChain_append]
  refine and_congr_right fun _ => and_congr_right fun _ => ?_
  constructor
  · rintro h ⟨hlast, hhead⟩
    exact h _ hlast _ hhead ⟨rfl, rfl⟩
  · rintro h a ha b hb ⟨rfl, rfl⟩
    exact h ⟨ha, hb⟩

theorem isBare_of_not_mem {cs : List Char} (h : '/' ∉ cs) : IsBare cs := by
  rintro before after rfl
  exact h (by simp)

/-- A comment begins with the first character or behind it. -/
theorem isBare_cons {c : Char} {cs : List Char} :
    IsBare (c :: cs) ↔ IsBare cs ∧ ¬(c = '/' ∧ cs.head? = some '/') := by
  have hsingle : IsBare [c] := isBare_iff_isChain.2 (List.isChain_singleton c)
  rw [← List.singleton_append, isBare_append, and_iff_right hsingle, List.getLast?_singleton,
    Option.some.injEq]

/-- A character that begins no comment stays. -/
theorem dropComment_cons {c : Char} {rest : List Char} (h : ¬(c = '/' ∧ rest.head? = some '/')) :
    dropComment (c :: rest) = c :: dropComment rest := by
  rw [dropComment]
  rintro after rfl rfl
  exact h ⟨rfl, rfl⟩

/-- What is left of a line is its body. -/
theorem isBody_dropComment (line : List Char) : IsBody line (dropComment line) := by
  induction line using dropComment.induct with
  | case1 => exact ⟨isBare_of_not_mem List.not_mem_nil, [], rfl, .inl rfl, .inl rfl⟩
  | case2 after =>
    exact ⟨isBare_of_not_mem List.not_mem_nil, _, rfl, .inr ⟨after, rfl⟩, .inr nofun⟩
  | case3 c rest hne ih =>
    -- the character and the next one are not both slashes
    have hapart : ¬(c = '/' ∧ rest.head? = some '/') := by
      rintro ⟨rfl, hhead⟩
      obtain ⟨after, rfl⟩ := List.head?_eq_some_iff.1 hhead
      exact hne after rfl rfl
    rw [dropComment_cons hapart]
    generalize dropComment rest = body at ih
    obtain ⟨hbare, comment, rfl, hcomment, hlast⟩ := ih
    refine ⟨isBare_cons.2 ⟨hbare, ?_⟩, comment, rfl, hcomment, ?_⟩
    · rintro ⟨rfl, hhead⟩
      exact hapart ⟨rfl, List.mem_head?_append_of_mem_head? hhead⟩
    · cases body with
      | cons d body => rwa [List.getLast?_cons_cons]
      | nil =>
        -- the character stands right before the comment
        rcases hcomment with rfl | ⟨after, rfl⟩
        · exact .inl rfl
        · exact .inr fun hc => hapart ⟨by simpa using hc, rfl⟩

/-- **What is left of a line without its comment.** -/
theorem dropComment_eq_iff {line body : List Char} :
    dropComment line = body ↔ IsBody line body := by
  constructor
  · rintro rfl
    exact isBody_dropComment line
  · rintro ⟨hbare, comment, rfl, hcomment, hlast⟩
    -- no comment begins before the end of the body, not even with its last character
    induction body with
    | nil => rcases hcomment with rfl | ⟨after, rfl⟩ <;> rfl
    | cons c body ih =>
      obtain ⟨hbody, hnext⟩ := isBare_cons.1 hbare
      have hapart : ¬(c = '/' ∧ (body ++ comment).head? = some '/') := by
        cases body with
        | cons d body => exact hnext
        | nil =>
          rcases hlast with rfl | hlast
          · exact fun h => nomatch h.2
          · exact fun h => hlast (by rw [h.1]; rfl)
      rw [List.cons_append, dropComment_cons hapart, ih hbody ?_]
      -- the rest of the body stands before the same comment
      rcases hlast with rfl | hlast
      · exact .inl rfl
      · cases body with
        | nil => exact .inr nofun
        | cons d body => exact .inr (by rwa [List.getLast?_cons_cons] at hlast)

/-! ### Lines -/

/-- A line ends with a line feed, or with a carriage return and a line feed. -/
def IsLineEnd (cs : List Char) : Prop := cs = ['\n'] ∨ cs = ['\r', '\n']

/-! ### Blanks -/

theorem ne_slash_of_isBlank {c : Char} (h : isBlank c = true) : c ≠ '/' := by
  rintro rfl
  cases h

theorem isBlank_of_isQuote {c : Char} (h : isQuote c = true) : isBlank c = false := by
  simp only [isQuote, Bool.or_eq_true, decide_eq_true_eq] at h
  rcases h with rfl | rfl <;> rfl

/-! ### Parts of a line -/

/-- What a line says: neither its comment nor the blanks at either end. -/
def content (line : List Char) : List Char := trim (dropComment line)

/-- The line is blank without its comment. -/
def IsIdle (line : List Char) : Prop :=
  ∃ blanks comment, line = blanks ++ comment ∧ (∀ c ∈ blanks, isBlank c = true) ∧
    IsComment comment

/-- A path that a directive can give. -/
structure IsPath (path : List Char) : Prop where
  ne_nil : path ≠ []
  word : ∀ c ∈ path, isBlank c = false
  bare : IsBare path
  head : ∀ c ∈ path.head?, isQuote c = false
  last : ∀ c ∈ path.getLast?, isQuote c = false

/-- The text gives the path: after the keyword and a blank, with quotes around it or not. -/
def States (body path : List Char) : Prop :=
  ∃ lead gap opening closing trail,
    body = lead ++ "module".toList ++ gap ++ opening ++ path ++ closing ++ trail ∧
    (∀ c ∈ lead ++ gap ++ trail, isBlank c = true) ∧ gap ≠ [] ∧
    ∀ c ∈ opening ++ closing, isQuote c = true

/-- The line gives the path, perhaps with a comment behind it. A slash in front of the comment would
belong to it. -/
def IsDirective (line path : List Char) : Prop :=
  IsPath path ∧ ∃ body comment, line = body ++ comment ∧ States body path ∧ IsComment comment ∧
    (comment = [] ∨ body.getLast? ≠ some '/')

/-- A line says nothing if it is blank without its comment. -/
theorem isIdle_iff {line : List Char} : IsIdle line ↔ content line = [] := by
  rw [content, trim_eq_nil_iff]
  constructor
  · rintro ⟨blanks, comment, rfl, hblanks, hcomment⟩
    -- the blanks hold no slash, so the comment begins right behind them
    have hslash : '/' ∉ blanks := fun h => ne_slash_of_isBlank (hblanks _ h) rfl
    rw [dropComment_eq_iff.2 ⟨isBare_of_not_mem hslash, comment, rfl, hcomment, .inr ?_⟩]
    · exact hblanks
    · exact fun hlast => hslash (List.mem_of_getLast? hlast)
  · intro hblanks
    obtain ⟨-, comment, hline, hcomment, -⟩ := isBody_dropComment line
    exact ⟨dropComment line, comment, hline, hblanks, hcomment⟩

/-- A carriage return at the end of a line is part of its comment or one more blank. -/
theorem content_append_return (line : List Char) : content (line ++ ['\r']) = content line := by
  obtain ⟨hbare, comment, hline, hcomment, hlast⟩ := isBody_dropComment line
  generalize hbody : dropComment line = body at hbare hline hlast
  rw [content, content, hbody]
  rcases hcomment with rfl | ⟨after, rfl⟩
  · -- no comment: the carriage return stands behind the body, and trimming takes it away
    have hreturn : IsBody (line ++ ['\r']) (body ++ ['\r']) := by
      refine ⟨isBare_append.2 ⟨hbare, isBare_of_not_mem (by decide), by simp⟩, [], ?_, .inl rfl,
        .inl rfl⟩
      rw [hline, List.append_nil, List.append_nil]
    rw [dropComment_eq_iff.2 hreturn, trim_append_blanks (List.forall_mem_singleton.2 rfl)]
  · -- a comment: the carriage return is its last character
    have hreturn : IsBody (line ++ ['\r']) body :=
      ⟨hbare, '/' :: '/' :: (after ++ ['\r']), by rw [hline]; simp, .inr ⟨_, rfl⟩,
        .inr (hlast.resolve_left nofun)⟩
    rw [dropComment_eq_iff.2 hreturn]

/-- A carriage return at the end of a line is no part of what it says. -/
theorem content_dropReturn (line : List Char) : content (dropReturn line) = content line := by
  rw [dropReturn]
  split
  · next hreturn =>
    obtain ⟨before, rfl⟩ := List.getLast?_eq_some_iff.1 hreturn
    rw [List.dropLast_concat, content_append_return]
  · rfl

/-! ### Directives -/

/-- A word that neither begins nor ends with a quote. -/
def IsWord (path : List Char) : Prop :=
  path ≠ [] ∧ (∀ c ∈ path, isBlank c = false) ∧ (∀ c ∈ path.head?, isQuote c = false) ∧
    ∀ c ∈ path.getLast?, isQuote c = false

/-- The path behind the keyword and a blank, trimmed of blanks and then of quotes, has to be one
word. -/
theorem modulePath?_eq_some {line path : List Char} :
    modulePath? line = some (.ofList path) ↔
      ∃ c rest, line = "module".toList ++ c :: rest ∧ isBlank c = true ∧
        trimMatches isQuote (trim rest) = path ∧ path ≠ [] ∧ ∀ c ∈ path, isBlank c = false := by
  rw [modulePath?]
  cases hstrip : stripPrefix? "module".toList line with
  | none =>
    -- the line does not begin with the keyword
    refine iff_of_false nofun ?_
    rintro ⟨c, rest, rfl, -⟩
    rw [stripPrefix?_append] at hstrip
    cases hstrip
  | some after =>
    rw [stripPrefix?_eq_some] at hstrip
    subst hstrip
    simp only [List.append_cancel_left_eq]
    cases after with
    | nil => exact iff_of_false nofun nofun
    | cons c rest =>
      constructor
      · intro h
        dsimp only at h
        split at h
        · next hvalid =>
          obtain rfl := String.ofList_inj.1 (Option.some.inj h)
          simp only [Bool.and_eq_true, Bool.not_eq_true', List.isEmpty_eq_false_iff,
            List.any_eq_false, Bool.not_eq_true] at hvalid
          exact ⟨c, rest, rfl, hvalid.1.1, rfl, hvalid.1.2, hvalid.2⟩
        · cases h
      · rintro ⟨c', rest', hcons, hblank, rfl, hne, hword⟩
        obtain ⟨rfl, rfl⟩ := List.cons.inj hcons
        refine if_pos ?_
        simp only [Bool.and_eq_true, Bool.not_eq_true', List.isEmpty_eq_false_iff,
          List.any_eq_false, Bool.not_eq_true]
        exact ⟨⟨hblank, hne⟩, hword⟩

/-- What is cut down to a path states it, and no quote is left at an end of the path. -/
theorem states_of_trim {body rest path : List Char} {c : Char}
    (htrim : trim body = "module".toList ++ c :: rest) (hblank : isBlank c = true)
    (hpath : trimMatches isQuote (trim rest) = path) :
    States body path ∧ (∀ d ∈ path.head?, isQuote d = false) ∧
      ∀ d ∈ path.getLast?, isQuote d = false := by
  -- the body is what is left of it and what is cut off: blanks, blanks again, and quotes
  obtain ⟨lead, trail, hbody, hlead, htrail, -⟩ := exists_append_trimMatches isBlank body
  obtain ⟨gap, trail', hrest, hgap, htrail', -⟩ := exists_append_trimMatches isBlank rest
  obtain ⟨opening, closing, hquoted, hopening, hclosing, hhead, hlast⟩ :=
    exists_append_trimMatches isQuote (trim rest)
  rw [← trim_eq_trimMatches] at hbody hrest
  rw [hpath] at hquoted hhead hlast
  refine ⟨⟨lead, c :: gap, opening, closing, trail' ++ trail, ?_, ?_, List.cons_ne_nil _ _,
    List.forall_mem_append.2 ⟨hopening, hclosing⟩⟩, hhead, hlast⟩
  · rw [hbody, htrim, hrest, hquoted]
    simp
  · simp only [List.forall_mem_append, List.forall_mem_cons]
    exact ⟨⟨hlead, hblank, hgap⟩, htrail', htrail⟩

/-- **What states a word is cut down to it**: blanks go first, then the keyword and the blanks behind
it, and quotes at last. -/
theorem States.exists_trim {body path : List Char} (h : States body path) (hpath : IsWord path) :
    ∃ c rest, trim body = "module".toList ++ c :: rest ∧ isBlank c = true ∧
      trimMatches isQuote (trim rest) = path := by
  obtain ⟨lead, gap, opening, closing, trail, rfl, hblanks, hgap, hquotes⟩ := h
  obtain ⟨hne, hword, hhead, hlast⟩ := hpath
  simp only [List.forall_mem_append] at hblanks hquotes
  obtain ⟨⟨hlead, hgapBlank⟩, htrail⟩ := hblanks
  obtain ⟨hopening, hclosing⟩ := hquotes
  obtain ⟨c, gap, rfl⟩ := List.exists_cons_of_ne_nil hgap
  obtain ⟨hc, hgapBlank⟩ := List.forall_mem_cons.1 hgapBlank
  -- neither a quote nor the path is blank, so trimming stops at them
  obtain ⟨quoted, hquoted⟩ : ∃ quoted, quoted = opening ++ path ++ closing := ⟨_, rfl⟩
  have hquotedWord : ∀ c ∈ quoted, isBlank c = false := by
    simp only [hquoted, List.forall_mem_append]
    exact ⟨⟨fun c hc => isBlank_of_isQuote (hopening c hc), hword⟩,
      fun c hc => isBlank_of_isQuote (hclosing c hc)⟩
  have hquotedNe : quoted ≠ [] := by simp [hquoted, hne]
  have hquotedHead : ∀ c ∈ quoted.head?, isBlank c = false := fun c hc =>
    hquotedWord c (List.mem_of_mem_head? hc)
  have hquotedLast : ∀ c ∈ quoted.getLast?, isBlank c = false := fun c hc =>
    hquotedWord c (List.mem_of_getLast? hc)
  refine ⟨c, gap ++ quoted, ?_, hc, ?_⟩
  · -- the keyword stops the cut in front, the last quote or the path the one behind
    have hkept : trim (lead ++ ("module".toList ++ c :: gap ++ quoted) ++ trail) =
        "module".toList ++ c :: gap ++ quoted := by
      refine trimMatches_append hlead htrail (fun d hd => ?_) ?_
      · rw [← Option.some.inj hd]
        rfl
      · rwa [List.getLast?_append_of_ne_nil _ hquotedNe]
    simpa [hquoted] using hkept
  · -- behind the keyword, blanks go first and quotes after them
    have hkept : trim (gap ++ quoted ++ []) = quoted :=
      trimMatches_append hgapBlank (List.forall_mem_nil _) hquotedHead hquotedLast
    rw [List.append_nil] at hkept
    rw [hkept, hquoted]
    exact trimMatches_append hopening hclosing hhead hlast

/-- **The path that is stated** is the one that is found. -/
theorem modulePath?_trim_eq_some {body path : List Char} :
    modulePath? (trim body) = some (.ofList path) ↔ IsWord path ∧ States body path := by
  rw [modulePath?_eq_some]
  constructor
  · rintro ⟨c, rest, htrim, hblank, hpath, hne, hword⟩
    obtain ⟨hstates, hhead, hlast⟩ := states_of_trim htrim hblank hpath
    exact ⟨⟨hne, hword, hhead, hlast⟩, hstates⟩
  · rintro ⟨hpath, hstates⟩
    obtain ⟨c, rest, htrim, hblank, hcut⟩ := hstates.exists_trim hpath
    exact ⟨c, rest, htrim, hblank, hcut, hpath.1, hpath.2.1⟩

/-- A comment begins in what states a path only if one begins in the path. -/
theorem States.isBare_iff {body path : List Char} (h : States body path) :
    IsBare body ↔ IsBare path := by
  obtain ⟨lead, gap, opening, closing, trail, rfl, hblanks, -, hquotes⟩ := h
  -- neither blanks nor the keyword nor quotes have a slash
  have hbefore : '/' ∉ lead ++ "module".toList ++ gap ++ opening := by
    intro hmem
    simp only [List.mem_append] at hmem
    rcases hmem with ((hlead | hkeyword) | hgap) | hopening
    · exact ne_slash_of_isBlank (hblanks _ (by simp [hlead])) rfl
    · revert hkeyword
      decide
    · exact ne_slash_of_isBlank (hblanks _ (by simp [hgap])) rfl
    · cases hquotes '/' (by simp [hopening])
  have hafter : '/' ∉ closing ++ trail := by
    intro hmem
    rcases List.mem_append.1 hmem with hclosing | htrail
    · cases hquotes '/' (by simp [hclosing])
    · exact ne_slash_of_isBlank (hblanks _ (by simp [htrail])) rfl
  rw [List.append_assoc _ closing, isBare_append, isBare_append]
  constructor
  · exact fun h => h.1.2.1
  · intro hpath
    refine ⟨⟨isBare_of_not_mem hbefore, hpath, fun h => ?_⟩, isBare_of_not_mem hafter, fun h => ?_⟩
    · exact hbefore (List.mem_of_getLast? h.1)
    · exact hafter (List.mem_of_mem_head? h.2)

/-- **A line gives a path** if the path is found in what the line says. -/
theorem isDirective_iff {line path : List Char} :
    IsDirective line path ↔ modulePath? (content line) = some (.ofList path) := by
  rw [content, modulePath?_trim_eq_some]
  constructor
  · rintro ⟨hpath, body, comment, rfl, hstates, hcomment, hlast⟩
    have hbody : IsBody (body ++ comment) body :=
      ⟨hstates.isBare_iff.2 hpath.bare, comment, rfl, hcomment, hlast⟩
    rw [dropComment_eq_iff.2 hbody]
    exact ⟨⟨hpath.ne_nil, hpath.word, hpath.head, hpath.last⟩, hstates⟩
  · rintro ⟨⟨hne, hword, hhead, hlast⟩, hstates⟩
    obtain ⟨hbare, comment, hline, hcomment, hapart⟩ := isBody_dropComment line
    exact ⟨⟨hne, hword, hstates.isBare_iff.1 hbare, hhead, hlast⟩, dropComment line, comment, hline,
      hstates, hcomment, hapart⟩

/-! ### Manifests -/

/-- The text declares the module of the path: a line gives the path, and all lines before it are
blank without their comments. What follows the line does not matter. -/
inductive Declares (path : List Char) : List Char → Prop where
  | directive {line rest : List Char} : '\n' ∉ line → IsDirective line path →
    (rest = [] ∨ ∃ ending after, IsLineEnd ending ∧ rest = ending ++ after) →
    Declares path (line ++ rest)
  | skip {line ending rest : List Char} : '\n' ∉ line → IsIdle line → IsLineEnd ending →
    Declares path rest → Declares path (line ++ ending ++ rest)

/-- The path in the first line that says anything. -/
def firstPath? (cs : List Char) : Option String :=
  (((lines cs).map content).find? (!·.isEmpty)).bind modulePath?

/-- The directive is the first path. -/
theorem directive?_eq_firstPath? (text : String) : directive? text = firstPath? text.toList := rfl

/-- A text of one line has the path that the line gives. -/
theorem firstPath?_of_not_mem {line : List Char} (h : '\n' ∉ line) :
    firstPath? line = modulePath? (content line) := by
  rw [firstPath?, lines_of_not_mem h]
  cases line with
  | nil => rfl
  | cons c line =>
    cases hcontent : content (c :: line) with
    | nil => simp [hcontent, modulePath?, stripPrefix?]
    | cons d rest => simp [hcontent]

/-- A line that says nothing is passed over, and any other line decides. -/
theorem firstPath?_append_ending {line ending : List Char} (h : '\n' ∉ line)
    (hending : IsLineEnd ending) (rest : List Char) :
    firstPath? (line ++ ending ++ rest) =
      if content line = [] then firstPath? rest else modulePath? (content line) := by
  -- either ending is a line feed, with a carriage return in front of it or not
  obtain ⟨line', hline', hline, hcontent⟩ : ∃ line', '\n' ∉ line' ∧
      line ++ ending = line' ++ ['\n'] ∧ content line' = content line := by
    rcases hending with rfl | rfl
    · exact ⟨line, h, rfl, rfl⟩
    · exact ⟨line ++ ['\r'], by simpa using h, by simp, content_append_return line⟩
  rw [hline, List.append_assoc, List.singleton_append, firstPath?, lines_append_newline hline',
    List.map_cons, content_dropReturn, hcontent]
  cases hcontent : content line with
  | nil => rfl
  | cons c cs => rfl

/-- **A path is found exactly in the texts that declare it.** -/
theorem firstPath?_eq_some {path cs : List Char} :
    firstPath? cs = some (.ofList path) ↔ Declares path cs := by
  constructor
  · intro h
    induction cs using lineInduction with
    | last line hline =>
      rw [firstPath?_of_not_mem hline, ← isDirective_iff] at h
      exact List.append_nil line ▸ .directive hline h (.inl rfl)
    | next line rest hline ih =>
      have htext : line ++ '\n' :: rest = line ++ ['\n'] ++ rest := by simp
      rw [htext, firstPath?_append_ending hline (.inl rfl)] at h
      split at h
      · next hcontent =>
        -- the line says nothing, and the path is declared behind it
        exact htext ▸ .skip hline (isIdle_iff.2 hcontent) (.inl rfl) (ih h)
      · exact .directive hline (isDirective_iff.2 h) (.inr ⟨['\n'], rest, .inl rfl, rfl⟩)
  · intro h
    induction h with
    | directive hline hdirective hrest =>
      rw [isDirective_iff] at hdirective
      rcases hrest with rfl | ⟨ending, after, hending, rfl⟩
      · rw [List.append_nil, firstPath?_of_not_mem hline, hdirective]
      · rw [← List.append_assoc, firstPath?_append_ending hline hending, if_neg ?_, hdirective]
        -- a blank line gives no path
        intro hcontent
        rw [hcontent] at hdirective
        cases hdirective
    | skip hline hidle hending _ ih =>
      rw [firstPath?_append_ending hline hending, if_pos (isIdle_iff.1 hidle), ih]

/-- **The directive is found exactly.** A manifest has the module path that it declares, and none if
it declares no path. -/
theorem directive?_exact (text : String) :
    (∀ path, directive? text = some path ↔ Declares path.toList text.toList) ∧
      (directive? text = none ↔ ∀ path, ¬Declares path text.toList) := by
  have hsome (path : String) : directive? text = some path ↔ Declares path.toList text.toList := by
    rw [directive?_eq_firstPath?, ← firstPath?_eq_some, String.ofList_toList]
  refine ⟨hsome, ?_⟩
  rw [Option.eq_none_iff_forall_ne_some]
  constructor
  · -- a declared path would be found
    intro hnone path hdeclares
    exact hnone (.ofList path) ((hsome _).2 (by rwa [String.toList_ofList]))
  · exact fun hnone path hpath => hnone _ ((hsome path).1 hpath)

end PackageGraph.Manifest
