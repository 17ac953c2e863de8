import Mathlib.Data.List.Nodup
import ScriptTree.Proofs.Lineages
import ScriptTree.Proofs.Roll

/-!
# What is due to a node

The entries of the identity table that are due to a node are its own and those of the nodes below it
(`Site.due`). In a tree that conforms, nothing is due to tokens, comments and interpreter lines, so
what is due to the children is due to the phrases among them, in whatever way those are picked
(`due_children`, `due_fields`).
-/
namespace ScriptTree

open ParseTree (Site)

namespace ParseTree.Site

variable {s c : Site} {above : List Site} {kind : GrammarKind}

/-! ## Kinds and phrases of a node -/

theorem hasKind_eq (kindOf : GrammarKind.ofName? s.kind = some kind)
    (kinds : GrammarKind → Bool) : s.hasKind kinds = kinds kind := by
  rw [hasKind, kindOf]
  rfl

/-- The only rule of a kind gives its name away. -/
theorem name_of_kind {name : String} (kindOf : GrammarKind.ofName? s.kind = some kind)
    (only : ∀ rule ∈ GrammarKind.table, rule.2 = kind → rule.1 = name) : s.kind = name := by
  obtain ⟨_, _, split, -⟩ := List.lookup_eq_some_iff.1 kindOf
  exact only (s.kind, kind) (split ▸ by simp) rfl

theorem mem_members {s c : Site} :
    c ∈ s.members ↔ c ∈ s.children ∧ c.isPhrase ∧ c.kind ≠ "hash_bang_line" := by
  rw [members, List.mem_filter, isPhrase]
  simp [and_assoc]

theorem member_of_phrase {c : Site} (phrase : c.isPhrase) (line : c.kind ≠ "hash_bang_line") :
    c.label.named && !c.label.extra && c.kind != "hash_bang_line" :=
  Bool.and_eq_true_iff.2 ⟨phrase, bne_iff_ne.2 line⟩

theorem isPhrase_of_phrases_eq_nil (h : s.phrases = []) (hc : c ∈ s.children) :
    c.isPhrase = false := by
  refine Bool.eq_false_iff.2 fun phrase => ?_
  have : c ∈ s.phrases := List.mem_filter.2 ⟨hc, phrase⟩
  rw [h] at this
  exact List.not_mem_nil this

theorem toList_head? {α : Type} {l : List α} (one : l.length ≤ 1) : l.head?.toList = l := by
  match l, one with
  | [], _ => rfl
  | [_], _ => rfl

/-- The only phrase of a node is its first member. -/
theorem firstMember?_toList (one : s.phrases.length ≤ 1) : s.firstMember?.toList = s.members := by
  have fewer : s.members.Sublist s.phrases := List.monotone_filter_right _ fun c hc => by
    simp_all [isPhrase]
  exact toList_head? (Nat.le_trans fewer.length_le one)

theorem mem_fieldMembers {name : String} :
    c ∈ s.fieldMembers name ↔ c ∈ s.children ∧ c.label.field = some name ∧ c.isPhrase := by
  simp [fieldMembers, isPhrase, and_assoc]

theorem field_of_field? {name : String} (h : s.field? name = some c) :
    c.label.field = some name := by
  simpa using List.find?_some h

theorem readFields_nodup (s : Site) (kind : GrammarKind) :
    ((s.readFields kind).map Prod.fst).Nodup := by
  cases kind with
  | forInStatement | methodDefinition =>
    rw [readFields]
    split <;> decide
  | _ =>
    simp only [readFields]
    exact reads_nodup _

theorem fields_of_readsPhrases (reads : s.readsPhrases kind) :
    ∀ c ∈ s.phrases, ∃ name ∈ (s.readFields kind).map Prod.fst, c.label.field = some name := by
  intro c hc
  obtain ⟨read, hr, field⟩ :=
    List.any_eq_true.1 (List.all_eq_true.1 (Bool.and_eq_true_iff.1 reads).1 c hc)
  exact ⟨read.1, List.mem_map_of_mem hr, by simpa using field⟩

/-! ## Entries of a node -/

theorem share_eq_nil (h : s.isEntered = false) : Lineage.share ⟨s, above⟩ = [] := by
  refine List.filter_eq_nil_iff.2 fun c hc => ?_
  rw [List.eq_of_mem_replicate hc]
  exact Bool.eq_false_iff.1 h

theorem isEntered_of_inert (inert : s.isPhrase = false) : s.isEntered = false := by
  simp [isEntered, inert]

theorem kinds_of_isShorthandDefault {left : Site}
    (isDefault : Lineage.isShorthandDefault ⟨s, above⟩) (hl : s.field? "left" = some left) :
    s.kind = "object_assignment_pattern" ∧ left.kind = "shorthand_property_identifier_pattern" := by
  cases above with
  | nil => cases isDefault
  | cons parent above =>
    simp only [Lineage.isShorthandDefault, hl, Option.any_some, Bool.and_eq_true, beq_iff_eq]
      at isDefault
    exact ⟨isDefault.1.2, isDefault.2⟩

end ParseTree.Site

namespace Lineage

/-- Whether a node is no short form of a property and no name in one. -/
structure IsPlain (l : Lineage) : Prop where
  shorthand : l.isShorthand = false
  shorthandDefault : l.isShorthandDefault = false
  defaultName : l.isDefaultName = false

theorem IsPlain.share {l : Lineage} (h : l.IsPlain) :
    l.share = [l.site].filter Site.isEntered := by
  rw [Lineage.share, entries, h.shorthand, h.shorthandDefault, h.defaultName]
  rfl

theorem eq_of_mem_share {l : Lineage} {c : Site} (h : c ∈ l.share) : c = l.site :=
  List.eq_of_mem_replicate (List.mem_filter.1 h).1

theorem countP_share {l : Lineage} (h : l.site.isEntered) :
    l.share.countP (fun c => c.id == l.site.id) = l.entries := by
  have all : l.share = List.replicate l.entries l.site :=
    List.filter_eq_self.2 fun c hc => by rwa [List.eq_of_mem_replicate hc]
  rw [all, List.countP_replicate, if_pos (by simp)]

/-- Among the shares of different nodes, each has as many as are due to it. -/
theorem countP_shares {ls : List Lineage} {l : Lineage} (distinct : (ls.map (·.site.id)).Nodup)
    (hl : l ∈ ls) (h : l.site.isEntered) :
    (ls.flatMap share).countP (fun c => c.id == l.site.id) = l.entries := by
  induction ls with
  | nil => cases hl
  | cons m ls ih =>
    obtain ⟨other, distinct⟩ := List.nodup_cons.1 distinct
    rw [List.flatMap_cons, List.countP_append]
    rcases List.mem_cons.1 hl with rfl | hl
    · have rest : (ls.flatMap share).countP (fun c => c.id == l.site.id) = 0 := by
        refine List.countP_eq_zero.2 fun c hc same => ?_
        obtain ⟨m, hm, hc⟩ := List.mem_flatMap.1 hc
        rw [eq_of_mem_share hc] at same
        exact other (List.mem_map.2 ⟨m, hm, beq_iff_eq.1 same⟩)
      rw [rest, countP_share h]
      rfl
    · have first : m.share.countP (fun c => c.id == l.site.id) = 0 := by
        refine List.countP_eq_zero.2 fun c hc same => ?_
        rw [eq_of_mem_share hc] at same
        exact other (List.mem_map.2 ⟨l, hl, (beq_iff_eq.1 same).symm⟩)
      rw [first, ih distinct hl, Nat.zero_add]

end Lineage

namespace ParseTree.Site

variable {s c : Site} {above : List Site} {kind : GrammarKind}

/-- Outside objects and their patterns, what is in a plain node is plain. -/
theorem plain_child (plain : Lineage.IsPlain ⟨s, above⟩)
    (kindOf : GrammarKind.ofName? s.kind = some kind)
    (other : kind ≠ .object ∧ kind ≠ .objectPattern) : Lineage.IsPlain ⟨c, s :: above⟩ := by
  have object : s.kind ≠ "object" := fun h => other.1 (by
    rw [h] at kindOf
    exact (Option.some.inj kindOf).symm)
  have pattern : s.kind ≠ "object_pattern" := fun h => other.2 (by
    rw [h] at kindOf
    exact (Option.some.inj kindOf).symm)
  refine ⟨?_, ?_, ?_⟩
  · simp [Lineage.isShorthand, object, pattern]
  · simp [Lineage.isShorthandDefault, pattern]
  · rw [Lineage.isDefaultName, plain.shorthandDefault, Bool.and_false]

/-! ## Entries of a node and of the nodes below it -/

/-- The entries that are due to a node and to the nodes below it. -/
def due (s : Site) (above : List Site) : List Site :=
  (s.lineages above).flatMap Lineage.share

/-- Whether the phrases in a node and in the nodes below it stand where they are read. -/
def Regular (s : Site) (above : List Site) : Prop :=
  ∀ l ∈ s.lineages above, l.site.conforms

theorem due_eq (s : Site) (above : List Site) :
    s.due above = Lineage.share ⟨s, above⟩ ++
      if s.hasKind GrammarKind.isLeaf then [] else s.children.flatMap (·.due (s :: above)) := by
  rw [due, lineages_eq, List.flatMap_cons]
  split
  · rfl
  · rw [List.flatMap_assoc]
    rfl

theorem Regular.conforms (h : s.Regular above) : s.conforms :=
  h ⟨s, above⟩ (by rw [lineages_eq]; exact List.mem_cons_self)

theorem Regular.child (h : s.Regular above) (leaf : s.hasKind GrammarKind.isLeaf = false)
    (hc : c ∈ s.children) : c.Regular (s :: above) := by
  intro l hl
  refine h l ?_
  rw [lineages_eq, leaf, if_neg (by simp)]
  exact List.mem_cons_of_mem _ (List.mem_flatMap.2 ⟨c, hc, hl⟩)

theorem phrases_eq_nil_of_conforms (h : s.conforms) (inert : s.isPhrase = false)
    (leaf : s.hasKind GrammarKind.isLeaf = false) : s.phrases = [] := by
  have := (Bool.and_eq_true_iff.1 h).2
  rw [inert, leaf] at this
  exact List.isEmpty_iff.1 this

/-- Nothing is due to a node without phrases in it. -/
theorem due_of_phrases_eq_nil {s : Site} {above : List Site} (h : s.Regular above)
    (entered : s.isEntered = false)
    (none : s.hasKind GrammarKind.isLeaf = false → s.phrases = []) : s.due above = [] := by
  rw [due_eq, share_eq_nil entered, List.nil_append]
  cases leaf : s.hasKind GrammarKind.isLeaf with
  | true => rfl
  | false =>
    -- The children are no phrases either, so there are none in them.
    rw [if_neg (by simp), List.flatMap_eq_nil_iff]
    intro c hc
    have inert := isPhrase_of_phrases_eq_nil (none leaf) hc
    have below := height_lt_of_mem_children hc
    have regular := h.child leaf hc
    exact due_of_phrases_eq_nil regular (isEntered_of_inert inert)
      (phrases_eq_nil_of_conforms regular.conforms inert)
termination_by s.tree.height

/-- Nothing is due to tokens and comments. -/
theorem due_inert (h : s.Regular above) (inert : s.isPhrase = false) : s.due above = [] :=
  due_of_phrases_eq_nil h (isEntered_of_inert inert) (phrases_eq_nil_of_conforms h.conforms inert)

theorem conformsAs_of_regular (h : s.Regular above)
    (kindOf : GrammarKind.ofName? s.kind = some kind) : s.conformsAs kind := by
  have := (Bool.and_eq_true_iff.1 h.conforms).1
  rwa [kindOf] at this

/-- Nothing is due to an interpreter line. -/
theorem due_interpreterLine (h : s.Regular above) (line : s.kind = "hash_bang_line") :
    s.due above = [] := by
  have kindOf : GrammarKind.ofName? s.kind = some .hashBangLine := by
    rw [line]
    rfl
  have reads : s.readsPhrases .hashBangLine := conformsAs_of_regular h kindOf
  refine due_of_phrases_eq_nil h (by simp [isEntered, line]) fun _ =>
    List.eq_nil_iff_forall_not_mem.2 fun c hc => ?_
  obtain ⟨name, hn, -⟩ := fields_of_readsPhrases reads c hc
  exact List.not_mem_nil hn

theorem flatMap_filter_eq {α β : Type} {p : α → Bool} {f : α → List β} {l : List α}
    (h : ∀ a ∈ l, p a = false → f a = []) : (l.filter p).flatMap f = l.flatMap f := by
  induction l with
  | nil => rfl
  | cons a l ih =>
    have ih := ih fun a ha => h a (List.mem_cons_of_mem _ ha)
    rw [List.filter_cons, List.flatMap_cons, ← ih]
    split
    · rw [List.flatMap_cons]
    · next hp => rw [h a List.mem_cons_self (by simpa using hp), List.nil_append]

/-- Among the children something is due to phrases alone, and nothing to an interpreter line. -/
theorem due_children {p : Site → Bool} (regular : ∀ c ∈ s.children, c.Regular (s :: above))
    (phrases : ∀ c ∈ s.children, c.isPhrase → c.kind ≠ "hash_bang_line" → p c) :
    s.children.flatMap (·.due (s :: above)) = (s.children.filter p).flatMap (·.due (s :: above)) := by
  refine (flatMap_filter_eq fun c hc other => ?_).symm
  by_cases line : c.kind = "hash_bang_line"
  · exact due_interpreterLine (regular c hc) line
  · refine due_inert (regular c hc) (Bool.eq_false_iff.2 fun phrase => ?_)
    rw [phrases c hc phrase line] at other
    cases other

/-- Where the first child in a field is read, nothing is due to the others. -/
theorem flatMap_fieldMembers (h : s.Regular above) (leaf : s.hasKind GrammarKind.isLeaf = false)
    {name : String} (reads : s.readsField (name, .first)) :
    (s.fieldMembers name).flatMap (·.due (s :: above)) =
      (s.field? name).toList.flatMap (·.due (s :: above)) := by
  simp only [readsField, Bool.and_eq_true, decide_eq_true_eq, Bool.or_eq_true] at reads
  obtain ⟨one, first⟩ := reads
  rw [← toList_head? one] at first ⊢
  cases hm : (s.fieldMembers name).head? with
  | none =>
    cases hf : s.field? name with
    | none => rfl
    | some c =>
      have hc := mem_children_of_field? hf
      have inert : c.isPhrase = false := Bool.eq_false_iff.2 fun phrase =>
        List.not_mem_nil (List.head?_eq_none_iff.1 hm ▸
          mem_fieldMembers.2 ⟨hc, field_of_field? hf, phrase⟩)
      simp [due_inert (h.child leaf hc) inert]
  | some d =>
    rw [hm] at first
    obtain ⟨c, hf, phrase⟩ := (Option.any_eq_true _ _).1 (first.resolve_left (by simp))
    have member : c ∈ s.fieldMembers name :=
      mem_fieldMembers.2 ⟨mem_children_of_field? hf, field_of_field? hf, phrase⟩
    rw [← toList_head? one, hm] at member
    rw [hf, List.mem_singleton.1 member]

/-- What is due to the children is due to the phrases in the fields that are read. -/
theorem due_fields (h : s.Regular above) (leaf : s.hasKind GrammarKind.isLeaf = false)
    {names : List String} (distinct : names.Nodup)
    (read : ∀ c ∈ s.phrases, ∃ name ∈ names, c.label.field = some name) :
    (names.flatMap fun name => (s.fieldMembers name).flatMap (·.due (s :: above))).Perm
      (s.children.flatMap (·.due (s :: above))) := by
  have fields (name : String) :
      (s.phrases.filter fun c => c.label.field == some name) = s.fieldMembers name := by
    rw [phrases, List.filter_filter, fieldMembers]
    exact List.filter_congr fun c _ => (Bool.and_assoc _ _ _).symm
  have all : (s.phrases.filter fun c => names.any fun name => c.label.field == some name) =
      s.phrases := List.filter_eq_self.2 fun c hc => by
    simpa using read c hc
  have sorted := (flatMap_field_perm distinct s.phrases).flatMap_right (·.due (s :: above))
  simp only [fields, all, List.flatMap_assoc] at sorted
  rw [due_children (fun _ => h.child leaf) fun c _ phrase _ => phrase]
  exact sorted

/-- What is due to a name with a default value: the name stands for two nodes, and so does the whole.
-/
theorem due_shorthandDefault {left : Site} (isDefault : Lineage.isShorthandDefault ⟨s, above⟩)
    (regular : s.Regular above) (hl : s.field? "left" = some left) :
    ([s, s].filter isEntered ++ ([left, left].filter isEntered ++
      (s.fieldMembers "right").flatMap (·.due (s :: above)))).Perm (s.due above) := by
  obtain ⟨kind, name⟩ := kinds_of_isShorthandDefault isDefault hl
  have kindOf : GrammarKind.ofName? s.kind = some .objectAssignmentPattern := by
    rw [kind]
    rfl
  have leaf : s.hasKind GrammarKind.isLeaf = false := hasKind_eq kindOf _
  have reads : s.readsPhrases .objectAssignmentPattern := conformsAs_of_regular regular kindOf
  have readsLeft : s.readsField ("left", .first) :=
    List.all_eq_true.1 (Bool.and_eq_true_iff.1 reads).2 _ List.mem_cons_self
  have own : Lineage.share ⟨s, above⟩ = [s, s].filter isEntered := by
    have shorthand : Lineage.isShorthand ⟨s, above⟩ = false := by
      cases above <;> simp [Lineage.isShorthand, kind]
    rw [Lineage.share, Lineage.entries, shorthand, isDefault]
    rfl
  have dueLeft : (s.fieldMembers "left").flatMap (·.due (s :: above)) =
      [left, left].filter isEntered := by
    have shorthand : Lineage.isShorthand ⟨left, s :: above⟩ = false := by
      simp [Lineage.isShorthand, kind]
    have defaultName : Lineage.isDefaultName ⟨left, s :: above⟩ := by
      rw [Lineage.isDefaultName, isDefault, field_of_field? hl]
      rfl
    have leafName : left.hasKind GrammarKind.isLeaf := by
      rw [hasKind, name]
      rfl
    rw [flatMap_fieldMembers regular leaf readsLeft, hl, Option.toList_some,
      List.flatMap_singleton, due_eq, if_pos leafName, List.append_nil, Lineage.share,
      Lineage.entries, shorthand, defaultName, Bool.or_true]
    rfl
  have fields := due_fields regular leaf (s.readFields_nodup .objectAssignmentPattern)
    (fields_of_readsPhrases reads)
  simp only [readFields, GrammarKind.reads, List.map_cons, List.map_nil, List.flatMap_cons,
    List.flatMap_nil, List.append_nil, dueLeft] at fields
  rw [due_eq, leaf, if_neg (by simp), own]
  exact fields.append_left _

end ParseTree.Site

/-! ## The nodes of a program -/

namespace ParseTree

/-- No node of a program stands twice among its nodes with those above them. -/
theorem Site.lineages_sublist (s : Site) (above : List Site) :
    ((s.lineages above).map Lineage.site).Sublist s.subtree := by
  rw [lineages_eq, List.map_cons, subtree, below_eq]
  refine List.Sublist.cons_cons s ?_
  split
  · exact List.nil_sublist _
  · rw [List.map_flatMap]
    refine List.Sublist.flatMap_right _ fun c hc => ?_
    have below := height_lt_of_mem_children hc
    exact c.lineages_sublist (s :: above)
termination_by s.tree.height

theorem lineages_sublist (root : ParseTree) :
    (root.lineages.map Lineage.site).Sublist (root.preorderSites none) := by
  have below : (root.lineages.map Lineage.site).Sublist (rootSite root).below := by
    rw [lineages, forestLineages_eq, List.map_flatMap, Site.below_eq]
    exact List.Sublist.flatMap_right _ fun c _ => c.lineages_sublist _
  rw [preorderSites_eq]
  exact below.trans (List.sublist_cons_self _ _)

end ParseTree

end ScriptTree
