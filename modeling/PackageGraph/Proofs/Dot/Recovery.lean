import PackageGraph.Proofs.Dot.Skeleton
import PackageGraph.Proofs.Text.Decimal

/-!
# Drawings tell their records apart

A drawing is read as its skeleton with the texts of the records in the places, and nothing of a text
is read as code; so the drawing determines whatever of the records it shows (`draw_faithful`).

Two drawings with one text are the same tokens. These are compared statement by statement, since
every statement can be split off what follows it (`Separable`). The statements of a section are as
many in both drawings: each of them begins with a blank, and what follows a section does not
(`Separable.flatMap`).
-/

namespace PackageGraph.Dot

open Text

/-! ### Pieces without quotes -/

theorem unquoted_decimal (n : Nat) : (Piece.code (decimal n)).Unquoted :=
  not_mem_decimal rfl n

/-- A string is no code. -/
theorem unquoted_quoted (s : String) : (quoted s).Unquoted := trivial

theorem unquoted_header (options : DrawingOptions) : ∀ piece ∈ header options, piece.Unquoted := by
  simp [header, code, quoted, Piece.Unquoted]

theorem unquoted_nodeStatement (node : NodeRecord) :
    ∀ piece ∈ nodeStatement node, piece.Unquoted := by
  cases h : node.isGroup <;> simp [nodeStatement, h, code, quoted, Piece.Unquoted]

theorem unquoted_edgeStatement (edge : EdgeRecord) :
    ∀ piece ∈ edgeStatement edge, piece.Unquoted := by
  simp [edgeStatement, code, quoted, Piece.Unquoted]

theorem unquoted_rankMembers (members : List String) :
    ∀ piece ∈ rankMembers members, piece.Unquoted := by
  induction members using rankMembers.induct with
  | case1 => simp [rankMembers]
  | case2 id => simp [rankMembers, unquoted_quoted]
  | case3 id next rest ih =>
    rw [rankMembers, List.forall_mem_cons, List.forall_mem_cons]
    exact ⟨unquoted_quoted id, by simp [code, Piece.Unquoted], ih⟩

theorem unquoted_rankStatement (rank : RankRecord) :
    ∀ piece ∈ rankStatement rank, piece.Unquoted := by
  have hcode : ∀ s ∈ ["  subgraph rank_", " \x7b rank=same; ", "; \x7d\n"], (code s).Unquoted := by
    simp [code, Piece.Unquoted]
  simp only [rankStatement, List.forall_mem_append, List.forall_mem_cons] at hcode ⊢
  exact ⟨⟨⟨hcode.1, unquoted_decimal _, hcode.2.1, by simp⟩, unquoted_rankMembers _⟩,
    hcode.2.2.1, by simp⟩

/-- **No code of a drawing has a quote.** -/
theorem unquoted_pieces (records : Records) (options : DrawingOptions) :
    ∀ piece ∈ pieces records options, piece.Unquoted := by
  have hcode : ∀ s ∈ ["\n", "\x7d\n"], (code s).Unquoted := by simp [code, Piece.Unquoted]
  intro piece hpiece
  simp only [pieces, List.mem_append, List.mem_flatMap, List.mem_singleton] at hpiece
  rcases hpiece with (((((h | ⟨node, -, h⟩) | rfl) | ⟨edge, -, h⟩) | h) | ⟨rank, -, h⟩) | rfl
  · exact unquoted_header options piece h
  · exact unquoted_nodeStatement node piece h
  · exact hcode _ (by simp)
  · exact unquoted_edgeStatement edge piece h
  · -- the line break in front of the ranks, if there are any
    split at h
    · cases h
    · exact List.mem_singleton.1 h ▸ hcode _ (by simp)
  · exact unquoted_rankStatement rank piece h
  · exact hcode _ (by simp)

/-! ### Statements told apart -/

section Separable

variable {α β κ : Type} {write : α → List β} {key : α → κ}

/-- What is written for an item can be split off whatever follows it, and the key of the item is
known from it. -/
def Separable (write : α → List β) (key : α → κ) : Prop :=
  ∀ a b s t, write a ++ s = write b ++ t → key a = key b ∧ s = t

/-- **Items written one after another are told apart**, if all of them begin in one way and what
follows the last of them begins in another. -/
theorem Separable.flatMap (h : Separable write key) {first : β}
    (hfirst : ∀ a, (write a).head? = some first) {xs ys : List α} {s t : List β}
    (hs : s.head? ≠ some first) (ht : t.head? ≠ some first)
    (heq : xs.flatMap write ++ s = ys.flatMap write ++ t) : xs.map key = ys.map key ∧ s = t := by
  have hhead (a : α) (rest : List β) : (write a ++ rest).head? = some first := by
    rw [List.head?_append, hfirst, Option.some_or]
  induction xs generalizing ys with
  | nil =>
    cases ys with
    | nil => exact ⟨rfl, heq⟩
    | cons y ys =>
      -- another item cannot begin where something else stands
      rw [List.flatMap_nil, List.nil_append, List.flatMap_cons, List.append_assoc] at heq
      exact absurd (heq ▸ hhead y _) hs
  | cons x xs ih =>
    cases ys with
    | nil =>
      rw [List.flatMap_nil, List.nil_append, List.flatMap_cons, List.append_assoc] at heq
      exact absurd (heq ▸ hhead x _) ht
    | cons y ys =>
      simp only [List.flatMap_cons, List.append_assoc] at heq
      obtain ⟨hkey, hrest⟩ := h x y _ _ heq
      obtain ⟨hkeys, htail⟩ := ih hrest
      exact ⟨by rw [List.map_cons, List.map_cons, hkey, hkeys], htail⟩

end Separable

/-- The tokens of pieces. -/
def tokens (pieces : List Piece) : List Token := pieces.flatMap Piece.tokens

theorem tokens_append (pieces more : List Piece) :
    tokens (pieces ++ more) = tokens pieces ++ tokens more := List.flatMap_append

theorem tokens_flatMap {α : Type} (write : α → List Piece) (items : List α) :
    tokens (items.flatMap write) = items.flatMap fun a => tokens (write a) := List.flatMap_assoc

/-- Behind the same code there are the same tokens. -/
theorem tokens_code_cancel {s : String} {pieces pieces' : List Piece} {rest rest' : List Token} :
    tokens (code s :: pieces) ++ rest = tokens (code s :: pieces') ++ rest' ↔
      tokens pieces ++ rest = tokens pieces' ++ rest' := by
  simp only [tokens, List.flatMap_cons, List.append_assoc, List.append_cancel_left_eq]

/-- A string is one token. -/
theorem tokens_string_cancel {cs cs' : List Char} {pieces pieces' : List Piece}
    {rest rest' : List Token} :
    tokens (.quoted cs :: pieces) ++ rest = tokens (.quoted cs' :: pieces') ++ rest' ↔
      cs = cs' ∧ tokens pieces ++ rest = tokens pieces' ++ rest' := by
  simp [tokens, Piece.tokens]

theorem tokens_quoted_cancel {s s' : String} {pieces pieces' : List Piece}
    {rest rest' : List Token} :
    tokens (quoted s :: pieces) ++ rest = tokens (quoted s' :: pieces') ++ rest' ↔
      s = s' ∧ tokens pieces ++ rest = tokens pieces' ++ rest' := by
  rw [quoted, quoted, tokens_string_cancel, String.toList_inj]

@[simp] theorem tokens_nil : tokens [] = [] := rfl

/-- **The header tells title and layout.** -/
theorem separable_header : Separable (fun options => tokens (header options)) id := by
  intro options options' s t h
  simp only [header, tokens_code_cancel, tokens_quoted_cancel, tokens_nil, List.nil_append] at h
  obtain ⟨-, htitle, -, -, -, -, -, -, hlayout, -, -, -, htail⟩ := h
  refine ⟨?_, htail⟩
  cases options
  cases options'
  exact congrArg₂ _ hlayout htitle

/-- The fill colour of a node tells its kind. -/
theorem kind_of_fillcolor {isGroup isGroup' : Bool} {pieces pieces' : List Piece}
    {rest rest' : List Token}
    (h : tokens (code (if isGroup then "9" else "10") :: pieces) ++ rest =
      tokens (code (if isGroup' then "9" else "10") :: pieces') ++ rest') : isGroup = isGroup' := by
  cases isGroup <;> cases isGroup' <;> simp [tokens, code, Piece.tokens] at h ⊢

/-- **A node's statement tells its id and its kind.** -/
theorem separable_nodeStatement :
    Separable (fun node => tokens (nodeStatement node)) fun node => (node.id, node.isGroup) := by
  intro node node' s t h
  simp only [nodeStatement, tokens_code_cancel, tokens_quoted_cancel] at h
  obtain ⟨hid, h⟩ := h
  have hkind := kind_of_fillcolor h
  simp only [hkind, tokens_code_cancel, tokens_string_cancel, tokens_nil, List.nil_append] at h
  exact ⟨congrArg₂ _ hid hkind, h.2⟩

/-- **An edge's statement tells the edge.** -/
theorem separable_edgeStatement : Separable (fun edge => tokens (edgeStatement edge)) id := by
  intro edge edge' s t h
  simp only [edgeStatement, tokens_code_cancel, tokens_quoted_cancel, tokens_string_cancel,
    tokens_nil, List.nil_append] at h
  obtain ⟨hsource, hdestination, hcolor, hweight, -, -, -, htail⟩ := h
  -- the colour tells whether the edge is forbidden
  have hforbidden : edge.forbidden = edge'.forbidden := by
    cases hedge : edge.forbidden <;> cases hedge' : edge'.forbidden <;>
      simp [hedge, hedge'] at hcolor ⊢
  refine ⟨?_, htail⟩
  cases edge
  cases edge'
  exact EdgeRecord.mk.injEq .. ▸ ⟨hsource, hdestination, decimal_injective hweight, hforbidden⟩

/-! ### Ranks told apart -/

/-- The digits of a depth end at the blank that follows them. -/
theorem tokens_depth_cancel {depth depth' : Nat} {pieces pieces' : List Piece}
    {rest rest' : List Token}
    (h : tokens (.code (decimal depth) :: code " \x7b rank=same; " :: pieces) ++ rest =
      tokens (.code (decimal depth') :: code " \x7b rank=same; " :: pieces') ++ rest') :
    depth = depth' ∧ tokens pieces ++ rest = tokens pieces' ++ rest' := by
  have hdigits (n : Nat) (more : List Token) :
      ((decimal n).map Token.code ++ .code ' ' :: more).takeWhile (· != .code ' ') =
        (decimal n).map .code := by
    rw [List.takeWhile_append_of_pos]
    · simp
    · intro token htoken
      obtain ⟨c, hc, rfl⟩ := List.mem_map.1 htoken
      simpa using ne_of_isDigit (isDigit_of_mem_decimal hc) rfl
  have hblank (pieces : List Piece) (rest : List Token) : ∃ more,
      tokens (code " \x7b rank=same; " :: pieces) ++ rest = .code ' ' :: more := ⟨_, rfl⟩
  have hsplit (n : Nat) (pieces : List Piece) (rest : List Token) :
      tokens (.code (decimal n) :: pieces) ++ rest =
        (decimal n).map .code ++ (tokens pieces ++ rest) := by
    simp [tokens, Piece.tokens]
  -- up to the first blank there are the digits and nothing else
  have hdepth : depth = depth' := by
    obtain ⟨more, hmore⟩ := hblank pieces rest
    obtain ⟨more', hmore'⟩ := hblank pieces' rest'
    have htake := congrArg (List.takeWhile (· != .code ' ')) h
    rw [hsplit, hsplit, hmore, hmore', hdigits, hdigits] at htake
    exact decimal_injective (List.map_injective_iff.2 (fun _ _ => Token.code.inj) htake)
  refine ⟨hdepth, ?_⟩
  rw [hdepth, hsplit, hsplit, List.append_cancel_left_eq] at h
  exact tokens_code_cancel.1 h

/-- What is written for the members of a rank and the bracket behind them. -/
def closedMembers (members : List String) : List Piece :=
  rankMembers members ++ [code "; \x7d\n"]

theorem closedMembers_nil : closedMembers [] = [code "; \x7d\n"] := rfl

theorem closedMembers_singleton (id : String) :
    closedMembers [id] = [quoted id, code "; \x7d\n"] := rfl

/-- A separator stands behind every member but the last one. -/
theorem closedMembers_cons (id next : String) (rest : List String) :
    closedMembers (id :: next :: rest) =
      quoted id :: code "; " :: closedMembers (next :: rest) := rfl

/-- Members begin with a string, the bracket does not. -/
theorem closedMembers_nil_ne (id : String) (members : List String) (s t : List Token) :
    tokens (closedMembers []) ++ s ≠ tokens (closedMembers (id :: members)) ++ t := by
  cases members <;>
    simp [closedMembers_nil, closedMembers_singleton, closedMembers_cons, tokens, code, quoted,
      Piece.tokens]

/-- The separator is followed by a member, the last member by the bracket. -/
theorem closedMembers_separator_ne (id : String) (members : List String) (s t : List Token) :
    tokens [code "; \x7d\n"] ++ s ≠ tokens (code "; " :: closedMembers (id :: members)) ++ t := by
  cases members <;>
    simp [closedMembers_singleton, closedMembers_cons, tokens, code, quoted, Piece.tokens]

/-- **Members in their bracket are told.** -/
theorem separable_closedMembers :
    Separable (fun members => tokens (closedMembers members)) id := by
  intro members members' s t h
  -- after each member, the next token says whether another one follows
  induction members using rankMembers.induct generalizing members' with
  | case1 =>
    -- no member
    cases members' with
    | nil => exact ⟨rfl, tokens_code_cancel.1 h⟩
    | cons id' rest' => exact absurd h (closedMembers_nil_ne id' rest' s t)
  | case2 id =>
    rcases members' with _ | ⟨id', _ | ⟨next', rest'⟩⟩
    · exact absurd h.symm (closedMembers_nil_ne id [] t s)
    · -- one member on either side
      simp only [closedMembers_singleton, tokens_quoted_cancel, tokens_code_cancel, tokens_nil,
        List.nil_append] at h
      exact ⟨congrArg (fun id => [id]) h.1, h.2⟩
    · have hrest := (tokens_quoted_cancel.1 h).2
      exact absurd hrest (closedMembers_separator_ne next' rest' s t)
  | case3 id next rest ih =>
    rcases members' with _ | ⟨id', _ | ⟨next', rest'⟩⟩
    · exact absurd h.symm (closedMembers_nil_ne id (next :: rest) t s)
    · have hrest := (tokens_quoted_cancel.1 h).2
      exact absurd hrest.symm (closedMembers_separator_ne next rest t s)
    · -- more members on either side
      simp only [closedMembers_cons, tokens_quoted_cancel, tokens_code_cancel] at h
      obtain ⟨hmembers, htail⟩ := ih _ h.2
      exact ⟨congrArg₂ List.cons h.1 hmembers, htail⟩

/-- **A rank's statement tells the rank.** -/
theorem separable_rankStatement : Separable (fun rank => tokens (rankStatement rank)) id := by
  intro rank rank' s t h
  have hstatement (rank : RankRecord) : rankStatement rank = code "  subgraph rank_" ::
      .code (decimal rank.depth) :: code " \x7b rank=same; " :: closedMembers rank.members :=
    List.append_assoc ..
  simp only [hstatement, tokens_code_cancel] at h
  obtain ⟨hdepth, hmembers⟩ := tokens_depth_cancel h
  obtain ⟨hmembers, htail⟩ := separable_closedMembers _ _ _ _ hmembers
  refine ⟨?_, htail⟩
  cases rank
  cases rank'
  exact congrArg₂ _ hdepth hmembers

/-! ### Drawings told apart -/

/-- What stands behind the edges: the ranks, if there are any, and the end. -/
def closing (ranks : List RankRecord) : List Piece :=
  (if ranks.isEmpty then [] else [code "\n"]) ++ ranks.flatMap rankStatement ++ [code "\x7d\n"]

/-- Ranks stand behind a line break. -/
theorem closing_cons (rank : RankRecord) (ranks : List RankRecord) :
    closing (rank :: ranks) =
      code "\n" :: ((rank :: ranks).flatMap rankStatement ++ [code "\x7d\n"]) := rfl

theorem closing_nil_ne (rank : RankRecord) (ranks : List RankRecord) :
    tokens (closing []) ≠ tokens (closing (rank :: ranks)) := by
  rw [closing_cons]
  simp [closing, tokens, code, Piece.tokens]

/-- What stands behind the edges begins with no blank, unlike an edge. -/
theorem head?_closing (ranks : List RankRecord) :
    (tokens (closing ranks)).head? ≠ some (.code ' ') := by
  cases ranks <;> simp [closing, tokens, code, Piece.tokens]

/-- **The end of a drawing tells the ranks.** -/
theorem closing_injective {ranks ranks' : List RankRecord}
    (h : tokens (closing ranks) = tokens (closing ranks')) : ranks = ranks' := by
  match ranks, ranks' with
  | [], [] => rfl
  | [], rank' :: ranks' => exact absurd h (closing_nil_ne rank' ranks')
  | rank :: ranks, [] => exact absurd h.symm (closing_nil_ne rank ranks)
  | rank :: ranks, rank' :: ranks' =>
    have htail : (tokens [code "\x7d\n"]).head? ≠ some (.code ' ') := by decide
    rw [← List.append_nil (tokens _), ← List.append_nil (tokens (closing (rank' :: ranks'))),
      closing_cons, closing_cons, tokens_code_cancel, List.append_nil, List.append_nil,
      tokens_append, tokens_append, tokens_flatMap, tokens_flatMap] at h
    simpa using (separable_rankStatement.flatMap (fun _ => rfl) htail htail h).1

/-- **Drawings of the same tokens show the same.** -/
theorem eq_of_tokens_pieces {records records' : Records} {options options' : DrawingOptions}
    (h : tokens (pieces records options) = tokens (pieces records' options')) :
    options = options' ∧
      records.nodes.map (fun node => (node.id, node.isGroup)) =
        records'.nodes.map (fun node => (node.id, node.isGroup)) ∧
      records.edges = records'.edges ∧ records.ranks = records'.ranks := by
  have hpieces (records : Records) (options : DrawingOptions) :
      tokens (pieces records options) = tokens (header options) ++
        (records.nodes.flatMap (fun node => tokens (nodeStatement node)) ++
          tokens (code "\n" :: records.edges.flatMap edgeStatement) ++
            tokens (closing records.ranks)) := by
    simp only [pieces, closing, tokens, List.flatMap_append, List.flatMap_assoc, List.append_assoc,
      List.flatMap_cons, List.flatMap_nil, List.append_nil]
  have hline (pieces : List Piece) (rest : List Token) :
      (tokens (code "\n" :: pieces) ++ rest).head? ≠ some (.code ' ') := by
    simp [tokens, code, Piece.tokens]
  rw [hpieces, hpieces] at h
  -- section after section is split off, and what is left is the same again
  obtain ⟨hoptions, h⟩ := separable_header _ _ _ _ h
  rw [List.append_assoc, List.append_assoc] at h
  obtain ⟨hnodes, h⟩ :=
    separable_nodeStatement.flatMap (fun _ => rfl) (hline _ _) (hline _ _) h
  rw [tokens_code_cancel, tokens_flatMap, tokens_flatMap] at h
  obtain ⟨hedges, h⟩ := separable_edgeStatement.flatMap (fun _ => rfl) (head?_closing _)
    (head?_closing _) h
  exact ⟨hoptions, hnodes, by simpa using hedges, closing_injective h⟩

/-- **A drawing shows its records and nothing else.** Read by the rule for strings it is the
skeleton of their shape, with title and layout, the ids and labels of the nodes, the ends of the
edges and the members of the ranks in its places, and no character of them is read as code. So
drawings with one text have the same title and layout, the same nodes by id and kind, the same edges
and the same ranks. -/
theorem draw_faithful (records : Records) (options : DrawingOptions) :
    (∃ tokens, lex (draw records options) = some tokens ∧
      fill (skeleton (shape records)) (texts records options) =
        some (tokens.map Token.decoded)) ∧
      ∀ (records' : Records) (options' : DrawingOptions),
        draw records' options' = draw records options →
          options'.title = options.title ∧ options'.layout = options.layout ∧
            records'.nodes.map (fun node => (node.id, node.isGroup)) =
              records.nodes.map (fun node => (node.id, node.isGroup)) ∧
            records'.edges = records.edges ∧ records'.ranks = records.ranks := by
  have hlex (records : Records) (options : DrawingOptions) :=
    lex_flatMap_text (unquoted_pieces records options)
  obtain ⟨read, hread, hdecoded⟩ := hlex records options
  refine ⟨⟨read, hread, by rw [fill_skeleton, hdecoded]⟩, fun records' options' hdraw => ?_⟩
  obtain ⟨read', hread', hdecoded'⟩ := hlex records' options'
  -- a text is read in one way only
  have hsame : read' = read := by
    rw [draw, draw] at hdraw
    rw [hdraw, hread] at hread'
    exact (Option.some.inj hread').symm
  obtain ⟨hoptions, hshown⟩ := eq_of_tokens_pieces
    (show tokens (pieces records' options') = tokens (pieces records options) by
      rw [tokens, tokens, ← hdecoded, ← hdecoded', hsame])
  exact ⟨congrArg _ hoptions, congrArg _ hoptions, hshown⟩

end PackageGraph.Dot
