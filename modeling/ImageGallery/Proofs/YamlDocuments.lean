import ImageGallery.Proofs.YamlTokens
import ImageGallery.Yaml.Reader

/-!
# Documents of mappings in block style

A text that is a mapping is a document whose root is the mapping.
-/

namespace ImageGallery.Yaml

/-- The node of a scalar. -/
def Spelling.node (spelling : Spelling) : Node :=
  .scalar { style := spelling.style, text := String.ofList spelling.chars }

/-- The node of what stands behind a key. -/
def Content.node : Content → Node
  | nothing => .empty
  | braces _ => .mapping []
  | scalar _ spelling => spelling.node

/-- The keys of a mapping with their values. -/
def Block.entries : Block → List (Node × Node)
  | nil => []
  | entry key content _ others => (key.spelling.node, content.node) :: others.entries
  | nested key _ _ inner others => (key.spelling.node, .mapping inner.entries) :: others.entries

/-- The node of a text that is a mapping. Where there is nothing but a pause nothing is written. -/
def Page.root : Page → Node
  | block _ _ .nil => .empty
  | block _ _ keys => .mapping keys.entries
  | braces _ _ => .mapping []

section Reading

variable {handles : Handles} {fuel : Nat} {place : Place} {tokens : List Token}
  {anchors : List (String × Nat)}

theorem readNode_scalar (spelling : Spelling) :
    readNode handles (fuel + 1) place ⟨spelling.token :: tokens, anchors⟩ =
      some (spelling.node, ⟨tokens, anchors⟩) := by
  rw [Spelling.token, readNode]
  rfl

theorem readNode_braces :
    readNode handles (fuel + 2) place ⟨.flowMapping :: .flowMappingEnd :: tokens, anchors⟩ =
      some (.mapping [], ⟨tokens, anchors⟩) := by
  rw [readNode]
  rfl

theorem readNode_block {entries : List (Node × Node)} {rest : Reading} (block : place ≠ .flow)
    (read : readPairs handles fuel ⟨tokens, anchors⟩ = some (entries, rest)) :
    readNode handles (fuel + 1) place ⟨.blockMapping :: tokens, anchors⟩ =
      some (.mapping entries, rest) := by
  cases place with
  | flow => exact (block rfl).elim
  | block | blockPair =>
      rw [readNode]
      change (((readPairs handles fuel ⟨tokens, anchors⟩).map fun read =>
        (Node.mapping read.1, read.2)).bind fun read => some (read.1, read.2)) = _
      rw [read]
      rfl

/-- A key is read with its value. -/
theorem readPairs_key (key : Key) :
    readPairs handles (fuel + 3) ⟨key.tokens ++ tokens, anchors⟩ =
      (readUnless handles (fuel + 1) endsPart .blockPair ⟨tokens, anchors⟩).bind fun value =>
        (readPairs handles (fuel + 2) value.2).map fun pairs =>
          ((key.spelling.node, value.1) :: pairs.1, pairs.2) := by
  have scalar : readUnless handles (fuel + 2) endsPart .blockPair
      ⟨key.spelling.token :: .value :: tokens, anchors⟩ =
      some (key.spelling.node, ⟨.value :: tokens, anchors⟩) := by
    rw [readUnless]
    exact (if_neg Bool.false_ne_true).trans (readNode_scalar key.spelling)
  have value : readValue handles (fuel + 2) endsPart .blockPair ⟨.value :: tokens, anchors⟩ =
      readUnless handles (fuel + 1) endsPart .blockPair ⟨tokens, anchors⟩ := by
    rw [readValue]
    rfl
  rw [readPairs, Key.tokens]
  change ((readUnless handles (fuel + 2) endsPart .blockPair
      ⟨key.spelling.token :: .value :: tokens, anchors⟩).bind fun read =>
    (readValue handles (fuel + 2) endsPart .blockPair read.2).bind fun value =>
      (readPairs handles (fuel + 2) value.2).bind fun pairs =>
        some ((read.1, value.1) :: pairs.1, pairs.2)) = _
  rw [scalar, Option.bind_some, value]
  simp only [Option.map_eq_bind, Function.comp_def]

/-- What stands behind a key, in front of another key or the end of the mapping. -/
theorem readUnless_content (content : Content) (ends : tokens.head?.any endsPart = true) :
    readUnless handles (fuel + 3) endsPart .blockPair ⟨content.tokens ++ tokens, anchors⟩ =
      some (content.node, ⟨tokens, anchors⟩) := by
  cases content with
  | nothing =>
      rw [readUnless]
      exact if_pos ends
  | braces lead =>
      rw [readUnless]
      exact (if_neg Bool.false_ne_true).trans readNode_braces
  | scalar lead spelling =>
      rw [readUnless]
      exact (if_neg Bool.false_ne_true).trans (readNode_scalar spelling)

theorem endsPart_block (block : Block) :
    (block.tokens ++ .blockEnd :: tokens).head?.any endsPart = true := by
  cases block <;> rfl

/-- The tokens of a mapping are read as its entries. -/
theorem readPairs_block (block : Block) (enough : 2 * block.tokens.length < fuel) :
    readPairs handles fuel ⟨block.tokens ++ .blockEnd :: tokens, anchors⟩ =
      some (block.entries, ⟨tokens, anchors⟩) := by
  induction block generalizing fuel tokens with
  | nil =>
      obtain ⟨fuel, rfl⟩ := Nat.exists_eq_succ_of_ne_zero (Nat.ne_zero_of_lt enough)
      rw [Block.tokens, readPairs]
      rfl
  | entry key content ending others ih =>
      simp only [Block.tokens, Key.tokens, List.length_append, List.length_cons] at enough
      obtain ⟨fuel, rfl⟩ : ∃ count, fuel = count + 5 := ⟨fuel - 5, by omega⟩
      rw [Block.tokens, List.append_assoc, List.append_assoc, readPairs_key,
        readUnless_content content (endsPart_block others), Option.bind_some, ih (by omega)]
      rfl
  | nested key ending inside inner others ih_inner ih_others =>
      simp only [Block.tokens, Key.tokens, List.length_append, List.length_cons] at enough
      obtain ⟨fuel, rfl⟩ : ∃ count, fuel = count + 5 := ⟨fuel - 5, by omega⟩
      have block : Place.blockPair ≠ .flow := by decide
      have value : readUnless handles (fuel + 3) endsPart .blockPair
          ⟨.blockMapping :: (inner.tokens ++ .blockEnd :: (others.tokens ++ .blockEnd :: tokens)),
            anchors⟩ =
          some (.mapping inner.entries, ⟨others.tokens ++ .blockEnd :: tokens, anchors⟩) := by
        rw [readUnless]
        exact (if_neg Bool.false_ne_true).trans (readNode_block block (ih_inner (by omega)))
      have text_eq : (Block.nested key ending inside inner others).tokens ++ .blockEnd :: tokens =
          key.tokens ++ (.blockMapping :: (inner.tokens ++ .blockEnd ::
            (others.tokens ++ .blockEnd :: tokens))) := by
        simp [Block.tokens]
      rw [text_eq, readPairs_key, value, Option.bind_some, ih_others (by omega)]
      rfl

end Reading

theorem ofTokens?_block (keys : Block) :
    Document.ofTokens? (.blockMapping :: (keys.tokens ++ [.blockEnd])) =
      some ⟨.mapping keys.entries⟩ := by
  have enough : 2 * keys.tokens.length < 4 * (keys.tokens ++ [Token.blockEnd]).length + 7 := by
    rw [List.length_append]
    omega
  have read : readNode Handles.standard (4 * (keys.tokens ++ [Token.blockEnd]).length + 7 + 1)
      .block ⟨.blockMapping :: (keys.tokens ++ [.blockEnd]), []⟩ =
      some (.mapping keys.entries, ⟨[], []⟩) :=
    readNode_block nofun (readPairs_block keys enough)
  change ((readNode Handles.standard (4 * (keys.tokens ++ [Token.blockEnd]).length + 7 + 1)
    .block ⟨.blockMapping :: (keys.tokens ++ [.blockEnd]), []⟩).bind fun read =>
      if read.2.tokens.all (· = .documentEnd) then some (⟨read.1⟩ : Document) else none) = _
  rw [read]
  rfl

theorem ofTokens?_tokens (page : Page) : Document.ofTokens? page.tokens = some ⟨page.root⟩ := by
  cases page with
  | braces lead ending => rfl
  | block lead column keys =>
      cases keys with
      | nil => rfl
      | entry key content ending others => exact ofTokens?_block (.entry key content ending others)
      | nested key ending inside inner others =>
          exact ofTokens?_block (.nested key ending inside inner others)

/-- A text that is a mapping is read as the mapping. -/
theorem parse?_page {text : String} {page : Page} (allowed : text.toList.all isAllowed = true)
    (written : unifyBreaks text.toList = page.text) (proper : page.isProper = true) :
    parse? text = some ⟨page.root⟩ := by
  rw [parse?, if_pos allowed, written, scan?_text page proper, Option.bind_some,
    ofTokens?_tokens]

end ImageGallery.Yaml
