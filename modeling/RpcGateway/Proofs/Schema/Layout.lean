import RpcGateway.Proofs.Idl.Blocks
import RpcGateway.Proofs.Schema.Rendering
import Mathlib.Algebra.Ring.Nat
import Mathlib.Data.List.Sigma
/-!
# Layout of fields

Where the fields of a message are written: in the block of the group that they name, if the group is written
and there, and after the blocks otherwise. A field is told by its position among the fields of the message,
so that equal fields count as often as they occur.
-/
namespace RpcGateway.Schema

private theorem filter_others {α : Type} {key : α → Option Nat} {k : Nat} {p : Option Nat → Bool}
    (hk : p (some k) = false) (xs : List α) :
    ((xs.filter fun x => !(key x == some k)).filter fun x => p (key x)) =
      xs.filter fun x => p (key x) := by
  rw [List.filter_filter]
  apply List.filter_congr
  intro x _
  cases hx : key x == some k with
  | false => rw [Bool.not_false, Bool.and_true]
  | true => rw [eq_of_beq hx, hk, Bool.false_and]

/-- Groups by distinct keys, with what has no key, hold everything as often as it occurs. -/
private theorem perm_of_keys {α : Type} (key : α → Option Nat) {keys : List Nat} (hnodup : keys.Nodup)
    {xs : List α} (hkeys : ∀ x ∈ xs, ∀ k ∈ key x, k ∈ keys) :
    (keys.flatMap (fun k => xs.filter fun x => key x == some k) ++
      xs.filter fun x => (key x).isNone).Perm xs := by
  induction keys generalizing xs with
  | nil =>
    rw [List.flatMap_nil, List.nil_append, List.filter_eq_self.mpr]
    intro x hx
    rw [Option.isNone_iff_eq_none, Option.eq_none_iff_forall_ne_some]
    intro k hk
    cases hkeys x hx k hk
  | cons k keys ih =>
    obtain ⟨hnew, hrest⟩ := List.nodup_cons.mp hnodup
    let others := xs.filter fun x => !(key x == some k)
    have hothers : ∀ x ∈ others, ∀ j ∈ key x, j ∈ keys := by
      intro x hx j hj
      obtain ⟨hmem, hne⟩ := List.mem_filter.mp hx
      refine (List.mem_cons.mp (hkeys x hmem j hj)).resolve_left ?_
      rintro rfl
      rw [Option.mem_def.mp hj, beq_self_eq_true] at hne
      cases hne
    have hgroups : (keys.flatMap fun j => others.filter fun x => key x == some j) =
        keys.flatMap fun j => xs.filter fun x => key x == some j := by
      apply List.flatMap_congr
      intro j hj
      have hne : k ≠ j := fun heq => hnew (heq ▸ hj)
      exact filter_others (p := (· == some j)) (by simp [hne]) xs
    have hloose : (others.filter fun x => (key x).isNone) = xs.filter fun x => (key x).isNone :=
      filter_others (p := Option.isNone) rfl xs
    have hperm := ih hrest hothers
    rw [hgroups, hloose] at hperm
    rw [List.flatMap_cons, List.append_assoc]
    exact (hperm.append_left _).trans (List.filter_append_perm _ xs)

private theorem map_fst_filter_zipIdx {α : Type} (p : α → Bool) (xs : List α) :
    (xs.zipIdx.filter fun x => p x.1).map Prod.fst = xs.filter p := by
  conv_rhs => rw [← List.zipIdx_map_fst 0 xs, List.filter_map]
  rfl

private theorem sorted_filter_zipIdx {α : Type} (p : α × Nat → Bool) (xs : List α) :
    ((xs.zipIdx.filter p).map Prod.snd).Pairwise (· < ·) := by
  have hsorted : (xs.zipIdx.map Prod.snd).Pairwise (· < ·) := by
    rw [List.zipIdx_map_snd]
    exact List.pairwise_lt_range'
  exact hsorted.sublist (List.filter_sublist.map Prod.snd)

/-- The block of a group. Each field in it comes with its position among the fields of the message. -/
structure Block where
  oneof : Oneof
  index : Nat
  members : List (Field × Nat)

/-- The fields of a message in the order in which they are written. -/
structure Layout where
  blocks : List Block
  loose : List (Field × Nat)

def Layout.fields (l : Layout) : List (Field × Nat) :=
  l.blocks.flatMap (·.members) ++ l.loose

namespace Message

/-- The group in whose block a field of the message is written. -/
def groupOf? (m : Message) (f : Field × Nat) : Option Nat :=
  writtenOneof? m.fields m.oneofs.length f.1

/-- The fields in the block of a group. -/
def members (m : Message) (index : Nat) : List (Field × Nat) :=
  m.fields.zipIdx.filter (m.groupOf? · == some index)

def layout (m : Message) : Layout where
  blocks := (writtenOneofs m.fields m.oneofs).map fun (group, index) =>
    ⟨group, index, m.members index⟩
  loose := m.fields.zipIdx.filter fun f => (m.groupOf? f).isNone

/-- The line of a field of the message that stands in `scope`. -/
def fieldLine (dialect : Idl.Dialect) (scope : String) (m : Message) (labelled : Bool)
    (f : Field × Nat) : Idl.Line :=
  (f.1.declare dialect labelled (scope ++ "." ++ m.name.getD "") m.nested).line

/-- What stands in a message above its fields: its enumerations, then the messages nested in it. -/
def linesAbove (dialect : Idl.Dialect) (scope : String) (m : Message) : List Idl.Line :=
  m.enums.flatMap (·.declare.lines) ++
    (m.nested.filter (!·.isEntryType)).flatMap fun n =>
      (n.declare dialect (scope ++ "." ++ m.name.getD "")).lines

def blockLines (dialect : Idl.Dialect) (scope : String) (m : Message) (b : Block) : List Idl.Line :=
  Idl.block ("oneof " ++ b.oneof.name.getD "") (b.members.map (m.fieldLine dialect scope false))

/-- The lines of a message that stands in `scope`, with its fields laid out in some way. -/
def linesWith (dialect : Idl.Dialect) (scope : String) (m : Message) (l : Layout) : List Idl.Line :=
  Idl.block ("message " ++ m.name.getD "")
    (m.linesAbove dialect scope ++ (l.blocks.flatMap (m.blockLines dialect scope) ++
      l.loose.map (m.fieldLine dialect scope true)))

/-- What is written before the name of a field: its type, after its label where it has one. A map is written by
the types of its keys and values. -/
def typeText (dialect : Idl.Dialect) (scope : String) (m : Message) (labelled : Bool) (f : Field) :
    String :=
  match f.mapOf? (scope ++ "." ++ m.name.getD "") m.nested with
  | some entry => "map<" ++ (entryType entry "key").text ++ ", " ++ (entryType entry "value").text ++ ">"
  | none => (if labelled then (f.readLabel dialect).text else "") ++ f.typeRef.text

/-- The text of the line of a field. -/
def fieldText (dialect : Idl.Dialect) (scope : String) (m : Message) (labelled : Bool) (f : Field) :
    String :=
  m.typeText dialect scope labelled f ++ " " ++ f.name.getD "" ++ " = " ++ toString (f.number.getD 0) ++ ";"

/-- The lines that blocks take: one for each field, and two around them. -/
def height (blocks : List Block) : Nat :=
  (blocks.map fun b => b.members.length + 2).sum

/-- A layout is that of the text of a message in `scope`, and has each field of the message in one place: in
the block of the group that it names, if there is such a group and it has an unmarked member, and after the
blocks otherwise. The line of a field stands where the layout has it: below the head of the message, what is
above the fields, and the blocks and fields before it. -/
structure IsWrittenAs (dialect : Idl.Dialect) (scope : String) (m : Message) (l : Layout) : Prop where
  lines_eq : (m.declare dialect scope).lines = m.linesWith dialect scope l
  lines_length : (m.declare dialect scope).lines.length =
    1 + (m.linesAbove dialect scope).length + height l.blocks + l.loose.length + 1
  head_line : ∀ before b after, l.blocks = before ++ b :: after →
    (m.declare dialect scope).lines[1 + (m.linesAbove dialect scope).length + height before]? =
      some ⟨1, "oneof " ++ b.oneof.name.getD "" ++ " \x7b"⟩
  member_line : ∀ before b after, l.blocks = before ++ b :: after → ∀ i f, b.members[i]? = some f →
    (m.declare dialect scope).lines[1 + (m.linesAbove dialect scope).length + height before + 1 + i]? =
      some ⟨2, m.fieldText dialect scope false f.1⟩
  loose_line : ∀ i f, l.loose[i]? = some f →
    (m.declare dialect scope).lines[1 + (m.linesAbove dialect scope).length + height l.blocks + i]? =
      some ⟨1, m.fieldText dialect scope true f.1⟩
  fields_perm : l.fields.Perm m.fields.zipIdx
  mem_block_iff : ∀ f position index, m.fields[position]? = some f →
    ((∃ b ∈ l.blocks, b.index = index ∧ (f, position) ∈ b.members) ↔
      f.oneofIndex = some (index : Int) ∧ index < m.oneofs.length ∧
        ∃ g ∈ m.fields, g.oneofIndex = some (index : Int) ∧ g.isMarkedOptional = false)
  hasBlock_iff : ∀ index < m.oneofs.length,
    (∃ b ∈ l.blocks, b.index = index) ↔ ¬ IsSynthetic m.fields index
  blocks_sublist : (l.blocks.map fun b => (b.oneof, b.index)).Sublist m.oneofs.zipIdx
  members_sorted : ∀ b ∈ l.blocks, (b.members.map Prod.snd).Pairwise (· < ·)
  loose_sorted : (l.loose.map Prod.snd).Pairwise (· < ·)

private theorem mem_blocks_layout {m : Message} {b : Block} : b ∈ m.layout.blocks ↔
    m.oneofs[b.index]? = some b.oneof ∧ ¬ IsSynthetic m.fields b.index ∧
      b.members = m.members b.index := by
  rw [layout, List.mem_map, ← isUnwritten_iff, Bool.not_eq_true]
  constructor
  · rintro ⟨⟨group, index⟩, hgroup, rfl⟩
    obtain ⟨hthere, hwritten⟩ := mem_writtenOneofs.mp hgroup
    exact ⟨hthere, hwritten, rfl⟩
  · rintro ⟨hthere, hwritten, hmembers⟩
    refine ⟨(b.oneof, b.index), mem_writtenOneofs.mpr ⟨hthere, hwritten⟩, ?_⟩
    show (⟨b.oneof, b.index, m.members b.index⟩ : Block) = b
    rw [← hmembers]

private theorem exists_block_iff {m : Message} {index : Nat} :
    (∃ b ∈ m.layout.blocks, b.index = index) ↔
      index < m.oneofs.length ∧ ¬ IsSynthetic m.fields index := by
  constructor
  · rintro ⟨b, hb, rfl⟩
    obtain ⟨hthere, hwritten, -⟩ := mem_blocks_layout.mp hb
    exact ⟨(List.getElem?_eq_some_iff.mp hthere).1, hwritten⟩
  · rintro ⟨hlt, hwritten⟩
    exact ⟨⟨m.oneofs[index], index, m.members index⟩,
      mem_blocks_layout.mpr ⟨List.getElem?_eq_getElem hlt, hwritten, rfl⟩, rfl⟩

private theorem not_isSynthetic_iff {fields : List Field} {index : Nat} {f : Field} (hf : f ∈ fields)
    (hindex : f.oneofIndex = some (index : Int)) : ¬ IsSynthetic fields index ↔
      ∃ g ∈ fields, g.oneofIndex = some (index : Int) ∧ g.isMarkedOptional = false := by
  simp only [IsSynthetic, not_and, not_forall, Bool.not_eq_true, exists_prop]
  exact forall_prop_of_true ⟨f, hf, hindex⟩

private theorem groupOf?_eq_some_iff {m : Message} {f : Field × Nat} {index : Nat} :
    m.groupOf? f = some index ↔ f.1.oneofIndex = some (index : Int) ∧ index < m.oneofs.length ∧
      ¬ IsSynthetic m.fields index := by
  rw [groupOf?, writtenOneof?_eq_some_iff, ← isUnwritten_iff, Bool.not_eq_true]

theorem layout_fields_perm (m : Message) : m.layout.fields.Perm m.fields.zipIdx := by
  let keys := (writtenOneofs m.fields m.oneofs).map Prod.snd
  have hnodup : keys.Nodup :=
    (List.filter_sublist.map Prod.snd).nodup (List.nodup_zipIdx_map_snd m.oneofs)
  have hkeys : ∀ f ∈ m.fields.zipIdx, ∀ index ∈ m.groupOf? f, index ∈ keys := by
    intro f _ index hindex
    obtain ⟨-, hlt, hwritten⟩ := writtenOneof?_eq_some_iff.mp hindex
    exact List.mem_map.mpr
      ⟨(m.oneofs[index], index), mem_writtenOneofs.mpr ⟨List.getElem?_eq_getElem hlt, hwritten⟩, rfl⟩
  have hperm := perm_of_keys m.groupOf? hnodup hkeys
  rw [List.flatMap_map] at hperm
  rw [Layout.fields, layout, List.flatMap_map]
  exact hperm

theorem groupFields_eq_members (m : Message) (index : Nat) :
    groupFields m.fields m.oneofs.length index = (m.members index).map Prod.fst :=
  (map_fst_filter_zipIdx _ m.fields).symm

theorem looseFields_eq_layout (m : Message) :
    looseFields m.fields m.oneofs.length = m.layout.loose.map Prod.fst :=
  (map_fst_filter_zipIdx _ m.fields).symm

private theorem lines_layout (dialect : Idl.Dialect) (scope : String) (m : Message) :
    (m.declare dialect scope).lines = m.linesWith dialect scope m.layout := by
  obtain ⟨name, fields, nested, enums, oneofs, options⟩ := m
  let m : Message := ⟨name, fields, nested, enums, oneofs, options⟩
  have hgroup (group : Oneof) (index : Nat) :
      Idl.Oneof.lines ⟨group.name.getD "", (groupFields fields oneofs.length index).map
        (·.declare dialect false (scope ++ "." ++ name.getD "") nested)⟩ =
      Idl.block ("oneof " ++ group.name.getD "")
        ((m.members index).map (m.fieldLine dialect scope false)) := by
    rw [Idl.Oneof.lines, groupFields_eq_members m, List.map_map, List.map_map]
    rfl
  have hloose : ((looseFields fields oneofs.length).map
        (·.declare dialect true (scope ++ "." ++ name.getD "") nested)).map Idl.Field.line =
      m.layout.loose.map (m.fieldLine dialect scope true) := by
    rw [looseFields_eq_layout m, List.map_map, List.map_map]
    rfl
  rw [Message.declare, declareAll_eq_map, Idl.Message.lines_eq, Idl.Message.body, hloose]
  simp only [linesWith, linesAbove, blockLines, layout, List.flatMap_map, hgroup, List.append_assoc]
  rfl

private theorem fieldLine_eq (dialect : Idl.Dialect) (scope : String) (m : Message) (labelled : Bool)
    (f : Field × Nat) :
    m.fieldLine dialect scope labelled f = ⟨0, m.fieldText dialect scope labelled f.1⟩ := by
  rw [fieldLine, fieldText, typeText, Field.declare, Idl.Field.line, entryTypeOf?_eq_mapOf?,
    ← Field.labelIn_eq]
  cases f.1.mapOf? (scope ++ "." ++ m.name.getD "") m.nested with
  | some entry => rfl
  | none => cases labelled <;> rfl

section

variable {dialect : Idl.Dialect} {scope : String} {m : Message}

private theorem length_blockLines (b : Block) :
    (m.blockLines dialect scope b).length = b.members.length + 2 := by
  simp [blockLines, Idl.block]

private theorem length_flatMap_blockLines (blocks : List Block) :
    (blocks.flatMap (m.blockLines dialect scope)).length = height blocks := by
  simp only [List.length_flatMap, length_blockLines, height]

private theorem getElem?_block {head : String} {body : List Idl.Line} {i : Nat} {line : Idl.Line}
    (h : body[i]? = some line) : (Idl.block head body)[1 + i]? = some line.indent := by
  have hindented : (body.map Idl.Line.indent)[i]? = some line.indent := by rw [List.getElem?_map, h]; rfl
  rw [Idl.block, List.cons_append, Nat.add_comm, List.getElem?_cons_succ,
    List.getElem?_append_left (List.getElem?_eq_some_iff.mp hindented).1, hindented]

private theorem getElem?_blocks (before after : List Block) {b : Block} {i : Nat} {line : Idl.Line}
    (h : (m.blockLines dialect scope b)[i]? = some line) :
    ((before ++ b :: after).flatMap (m.blockLines dialect scope))[height before + i]? = some line := by
  rw [List.flatMap_append, List.flatMap_cons, ← length_flatMap_blockLines,
    List.getElem?_append_right (Nat.le_add_right _ _), Nat.add_sub_cancel_left,
    List.getElem?_append_left (List.getElem?_eq_some_iff.mp h).1, h]

private theorem getElem?_linesWith {l : Layout} {i : Nat} {line : Idl.Line}
    (h : (l.blocks.flatMap (m.blockLines dialect scope) ++
      l.loose.map (m.fieldLine dialect scope true))[i]? = some line) :
    (m.linesWith dialect scope l)[1 + (m.linesAbove dialect scope).length + i]? = some line.indent := by
  rw [Nat.add_assoc]
  refine getElem?_block ?_
  rw [List.getElem?_append_right (Nat.le_add_right _ _), Nat.add_sub_cancel_left, h]

private theorem getElem?_linesWith_block {l : Layout} {before after : List Block} {b : Block}
    (hblocks : l.blocks = before ++ b :: after) {i : Nat} {line : Idl.Line}
    (h : (m.blockLines dialect scope b)[i]? = some line) :
    (m.linesWith dialect scope l)[1 + (m.linesAbove dialect scope).length + height before + i]? =
      some line.indent := by
  have hline := getElem?_blocks before after h
  rw [← hblocks] at hline
  rw [Nat.add_assoc]
  refine getElem?_linesWith ?_
  rw [List.getElem?_append_left (List.getElem?_eq_some_iff.mp hline).1, hline]

private theorem length_linesWith (l : Layout) : (m.linesWith dialect scope l).length =
    1 + (m.linesAbove dialect scope).length + height l.blocks + l.loose.length + 1 := by
  rw [linesWith, Idl.block, List.length_append, List.length_cons, List.length_map, List.length_append,
    List.length_append, length_flatMap_blockLines, List.length_map, List.length_singleton]
  omega

end

/-- Every message is written with each of its fields in one place. -/
theorem layout_isWrittenAs (dialect : Idl.Dialect) (scope : String) (m : Message) :
    m.IsWrittenAs dialect scope m.layout where
  lines_eq := lines_layout dialect scope m
  lines_length := by
    rw [lines_layout, length_linesWith]
  head_line := by
    intro before b after hblocks
    rw [lines_layout]
    exact getElem?_linesWith_block hblocks (i := 0) rfl
  member_line := by
    intro before b after hblocks i f hf
    have hbody : (b.members.map (m.fieldLine dialect scope false))[i]? =
        some ⟨0, m.fieldText dialect scope false f.1⟩ := by
      rw [List.getElem?_map, hf, Option.map_some, fieldLine_eq]
    rw [lines_layout, Nat.add_assoc _ 1 i]
    exact getElem?_linesWith_block hblocks (getElem?_block hbody)
  loose_line := by
    intro i f hf
    have hbelow : (m.layout.blocks.flatMap (m.blockLines dialect scope) ++
        m.layout.loose.map (m.fieldLine dialect scope true))[height m.layout.blocks + i]? =
          some ⟨0, m.fieldText dialect scope true f.1⟩ := by
      rw [List.getElem?_append_right (by rw [length_flatMap_blockLines]; exact Nat.le_add_right _ _),
        length_flatMap_blockLines, Nat.add_sub_cancel_left, List.getElem?_map, hf, Option.map_some,
        fieldLine_eq]
    rw [lines_layout, Nat.add_assoc]
    exact getElem?_linesWith hbelow
  fields_perm := layout_fields_perm m
  mem_block_iff := by
    intro f position index hf
    have hmem := List.mem_of_getElem? hf
    constructor
    · rintro ⟨b, hb, rfl, hin⟩
      rw [(mem_blocks_layout.mp hb).2.2, members, List.mem_filter, beq_iff_eq, groupOf?_eq_some_iff] at hin
      obtain ⟨-, hindex, hlt, hwritten⟩ := hin
      exact ⟨hindex, hlt, (not_isSynthetic_iff hmem hindex).mp hwritten⟩
    · rintro ⟨hindex, hlt, hunmarked⟩
      have hwritten := (not_isSynthetic_iff hmem hindex).mpr hunmarked
      obtain ⟨b, hb, rfl⟩ := exists_block_iff.mpr ⟨hlt, hwritten⟩
      refine ⟨b, hb, rfl, ?_⟩
      rw [(mem_blocks_layout.mp hb).2.2, members, List.mem_filter, beq_iff_eq, groupOf?_eq_some_iff]
      exact ⟨List.mem_zipIdx_iff_getElem?.mpr hf, hindex, hlt, hwritten⟩
  hasBlock_iff := by
    intro index hlt
    rw [exists_block_iff, and_iff_right hlt]
  blocks_sublist := by
    have hgroups : (m.layout.blocks.map fun b => (b.oneof, b.index)) = writtenOneofs m.fields m.oneofs := by
      rw [layout, List.map_map]
      exact List.map_id _
    rw [hgroups]
    exact List.filter_sublist
  members_sorted := by
    intro b hb
    rw [(mem_blocks_layout.mp hb).2.2]
    exact sorted_filter_zipIdx _ _
  loose_sorted := sorted_filter_zipIdx _ _

end Message

end RpcGateway.Schema
