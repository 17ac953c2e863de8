import ScriptTree.Proofs.Constructs
import ScriptTree.Proofs.Shares

/-!
# Every phrase is entered

Main result `phrases_entered`: after a build of a conforming tree that succeeds, every phrase has
the entries of the identity table that are due to it. The sites that the conversion of a node enters
are, in some order, those that are due to it and to the nodes below it (`Site.Covered`). That is so
for a construct if it is so for all that is converted for it (`covered_of_frame`), and by induction
on the conversion for all that is converted in a build.
-/
namespace ScriptTree

open ParseTree (Site)

/-! ## What is entered -/

/-- The phrases that entries stand for, once for each entry. -/
def entered (rs : List Registration) : List Site :=
  (rs.filterMap Registration.site?).filter Site.isEntered

theorem entered_append (rs rs' : List Registration) :
    entered (rs ++ rs') = entered rs ++ entered rs' := by
  rw [entered, List.filterMap_append, List.filter_append]
  rfl

theorem entered_flatMap {α : Type} (l : List α) (f : α → List Registration) :
    entered (l.flatMap f) = l.flatMap fun a => entered (f a) := by
  rw [entered, List.filterMap_flatMap, List.filter_flatMap]
  rfl

mutual

/-- The sites that are converted when a plan is carried out. -/
def Plan.conversions : Plan → List Site
  | .convert s => [s]
  | .node _ _ parts => conversionsAll parts

/-- The sites that are converted when plans are carried out. -/
def conversionsAll : List Plan → List Site
  | [] => []
  | plan :: plans => plan.conversions ++ conversionsAll plans

end

theorem conversionsAll_append (as bs : List Plan) :
    conversionsAll (as ++ bs) = conversionsAll as ++ conversionsAll bs := by
  induction as with
  | nil => rfl
  | cons plan as ih => rw [List.cons_append, conversionsAll, ih, conversionsAll, List.append_assoc]

theorem conversionsAll_map (f : Site → Plan) (sites : List Site) :
    conversionsAll (sites.map f) = sites.flatMap fun s => (f s).conversions := by
  induction sites with
  | nil => rfl
  | cons s sites ih => rw [List.map_cons, conversionsAll, ih, List.flatMap_cons]

theorem conversionsAll_map_convert (sites : List Site) :
    conversionsAll (sites.map .convert) = sites := by
  rw [conversionsAll_map]
  exact List.flatMap_singleton' sites

/-! ## Fields -/

/-- Whether the conversion of a node enters what is due to it and to the nodes below it. -/
def ParseTree.Site.Covered (s : Site) : Prop :=
  ∀ above, s.Regular above → Lineage.IsPlain ⟨s, above⟩ → (entered s.roll).Perm (s.due above)

namespace ParseTree.Site

variable {s c : Site} {above : List Site} {kind : GrammarKind}

/-- Sites are converted one after another. -/
theorem sites_covered {sites : List Site} {above : List Site}
    (covered : ∀ c ∈ sites, c.Covered) (regular : ∀ c ∈ sites, c.Regular above)
    (plain : ∀ c ∈ sites, Lineage.IsPlain ⟨c, above⟩) :
    (entered (sites.flatMap roll)).Perm (sites.flatMap (·.due above)) := by
  rw [entered_flatMap]
  exact List.Perm.flatMap_left _ fun c hc => covered c hc above (regular c hc) (plain c hc)

/-- What is read inside a list that belongs to the construct around it is entered. -/
theorem list_covered (h : s.Regular above) (plain : Lineage.IsPlain ⟨s, above⟩)
    (list : s.hasKind GrammarKind.isPassedThrough || (!s.isPhrase && s.phrases.isEmpty))
    (covered : ∀ c ∈ s.members, c.Covered) :
    (entered (s.members.flatMap roll)).Perm (s.due above) := by
  rcases Bool.or_eq_true_iff.1 list with list | list
  · obtain ⟨kind, kindOf, passed⟩ := (Option.any_eq_true _ _).1 list
    have leaf : s.hasKind GrammarKind.isLeaf = false := by
      rw [hasKind_eq kindOf]
      cases kind <;> first | rfl | cases passed
    have other : kind ≠ .object ∧ kind ≠ .objectPattern := by
      constructor <;> rintro rfl <;> cases passed
    -- The list has no entry of its own; the nodes above its members are one more.
    rw [due_eq, share_eq_nil (by simp [isEntered, list]), leaf, List.nil_append,
      if_neg (by simp), due_children (fun _ => h.child leaf) fun c _ => member_of_phrase]
    exact sites_covered covered (fun c hc => h.child leaf (mem_members.1 hc).1)
      fun c _ => plain_child plain kindOf other
  · simp only [Bool.and_eq_true, Bool.not_eq_true', List.isEmpty_iff] at list
    have none : s.members = [] := List.eq_nil_iff_forall_not_mem.2 fun c hc => by
      obtain ⟨hc, phrase, -⟩ := mem_members.1 hc
      rw [isPhrase_of_phrases_eq_nil list.2 hc] at phrase
      cases phrase
    rw [due_inert h list.1, none]
    exact List.Perm.refl _

/-- What is read of a field is entered as it is due to the phrases in the field. -/
theorem reading_covered (h : s.Regular above) (leaf : s.hasKind GrammarKind.isLeaf = false)
    {field : String × FieldUse} (reads : s.readsField field)
    (plain : ∀ c ∈ s.children, c.label.field = some field.1 → Lineage.IsPlain ⟨c, s :: above⟩)
    (covered : ∀ c ∈ s.reading field, c.Covered) :
    (entered ((s.reading field).flatMap roll)).Perm
      ((s.fieldMembers field.1).flatMap (·.due (s :: above))) := by
  have direct {sites : List Site} (covered : ∀ c ∈ sites, c.Covered)
      (sub : sites ⊆ s.fieldChildren field.1) : (entered (sites.flatMap roll)).Perm
        (sites.flatMap (·.due (s :: above))) := by
    have child {c} (hc : c ∈ sites) : c ∈ s.children ∧ c.label.field = some field.1 := by
      simpa [fieldChildren] using sub hc
    exact sites_covered covered (fun c hc => h.child leaf (child hc).1)
      fun c hc => plain c (child hc).1 (child hc).2
  obtain ⟨name, use⟩ := field
  cases use with
  | first =>
    rw [flatMap_fieldMembers h leaf reads]
    exact direct covered (s.field?_sublist name).subset
  | members => exact direct covered (s.fieldMembers_sublist name).subset
  | firstMember =>
    have all : s.reading (name, .firstMember) = s.fieldMembers name :=
      toList_head? (of_decide_eq_true reads)
    rw [all] at covered ⊢
    exact direct covered (s.fieldMembers_sublist name).subset
  | inside =>
    obtain ⟨reads, lists⟩ := Bool.and_eq_true_iff.1 reads
    rw [flatMap_fieldMembers h leaf reads]
    rw [reading] at covered ⊢
    cases hf : s.field? name with
    | none => exact List.Perm.refl _
    | some list =>
      simp only [hf, Option.all_some, Option.toList_some, List.flatMap_singleton] at lists covered ⊢
      have hc := mem_children_of_field? hf
      exact list_covered (h.child leaf hc) (plain list hc (field_of_field? hf)) lists covered

theorem readings_covered (h : s.Regular above) (leaf : s.hasKind GrammarKind.isLeaf = false)
    (plain : ∀ c ∈ s.children, Lineage.IsPlain ⟨c, s :: above⟩) (reads : s.readsPhrases kind)
    (covered : ∀ c ∈ (s.readFields kind).flatMap s.reading, c.Covered) :
    (entered (((s.readFields kind).flatMap s.reading).flatMap roll)).Perm
      (s.children.flatMap (·.due (s :: above))) := by
  refine List.Perm.trans ?_
    (due_fields h leaf (s.readFields_nodup kind) (fields_of_readsPhrases reads))
  rw [List.flatMap_assoc, entered_flatMap, List.flatMap_map]
  refine List.Perm.flatMap_left _ fun field hf => ?_
  exact reading_covered h leaf (List.all_eq_true.1 (Bool.and_eq_true_iff.1 reads).2 field hf)
    (fun c hc _ => plain c hc) fun c hc => covered c (List.mem_flatMap.2 ⟨field, hf, hc⟩)

/-! ## Short members -/

/-- A name that stands for a property has three entries. -/
theorem shorthandProperty_covered (shorthand : Lineage.isShorthand ⟨c, above⟩) :
    (entered ((Plan.shorthandProperty c).roll roll)).Perm (c.due above) := by
  have leaf : c.hasKind GrammarKind.isLeaf := by
    cases above with
    | nil => cases shorthand
    | cons parent above =>
      simp only [Lineage.isShorthand, Bool.or_eq_true, Bool.and_eq_true, beq_iff_eq] at shorthand
      rcases shorthand with ⟨-, name⟩ | ⟨-, name⟩ <;> rw [hasKind, name] <;> rfl
  rw [due_eq, if_pos leaf, List.append_nil, Lineage.share, Lineage.entries, if_pos shorthand]
  exact List.Perm.refl _

theorem objectMember_covered (object : s.kind = "object")
    (plain : Lineage.IsPlain ⟨s, above⟩) (regular : c.Regular (s :: above))
    (covered : ∀ d ∈ (Plan.objectMember c).conversions, d.Covered) :
    (entered ((Plan.objectMember c).roll roll)).Perm (c.due (s :: above)) := by
  unfold Plan.objectMember at covered ⊢
  by_cases shorthand : c.kind = "shorthand_property_identifier"
  · rw [if_pos shorthand]
    exact shorthandProperty_covered (by simp [Lineage.isShorthand, object, shorthand])
  · rw [if_neg shorthand] at covered ⊢
    refine covered c (List.mem_singleton_self c) _ regular ⟨?_, ?_, ?_⟩
    · simp [Lineage.isShorthand, object, shorthand]
    · simp [Lineage.isShorthandDefault, object]
    · rw [Lineage.isDefaultName, plain.shorthandDefault, Bool.and_false]

/-- A name with a default value and the name in it have two entries each. -/
theorem shorthandDefault_covered {left : Site} (isDefault : Lineage.isShorthandDefault ⟨c, above⟩)
    (regular : c.Regular above) (hl : c.field? "left" = some left)
    (covered : ∀ d ∈ c.reading ("right", .first), d.Covered) :
    (entered ((Plan.shorthandDefault c left).roll roll)).Perm (c.due above) := by
  have kind := (kinds_of_isShorthandDefault isDefault hl).1
  have kindOf : GrammarKind.ofName? c.kind = some .objectAssignmentPattern := by
    rw [kind]
    rfl
  have reads : c.readsPhrases .objectAssignmentPattern := conformsAs_of_regular regular kindOf
  have readsRight : c.readsField ("right", .first) :=
    List.all_eq_true.1 (Bool.and_eq_true_iff.1 reads).2 _ (List.mem_cons_of_mem _ List.mem_cons_self)
  have right : (entered ((c.reading ("right", .first)).flatMap roll)).Perm
      ((c.fieldMembers "right").flatMap (·.due (c :: above))) := by
    refine reading_covered regular (hasKind_eq kindOf _) readsRight (fun d _ hd => ⟨?_, ?_, ?_⟩)
      covered
    · simp [Lineage.isShorthand, kind]
    · simp [Lineage.isShorthandDefault, kind]
    · simp [Lineage.isDefaultName, hd]
  have entries : entered ((Plan.shorthandDefault c left).roll roll) =
      [c, left, c, left].filter isEntered ++
        entered ((c.reading ("right", .first)).flatMap roll) := by
    rw [← rollAll_map_convert, Plan.shorthandDefault, Plan.roll, rollAll_node, rollAll_node,
      rollAll_nil, List.append_nil]
    exact entered_append [.documented c, .bare left, .bare c, .bare left] _
  have sorted : [c, left, c, left].Perm ([c, c] ++ [left, left]) := (List.Perm.swap c left _).cons c
  refine List.Perm.trans ?_ (due_shorthandDefault isDefault regular hl)
  rw [entries, ← List.append_assoc, ← List.filter_append]
  exact (sorted.filter isEntered).append right

theorem patternMember_covered (pattern : s.kind = "object_pattern")
    (plain : Lineage.IsPlain ⟨s, above⟩) (regular : c.Regular (s :: above))
    (covered : ∀ d ∈ (Plan.patternMember c).conversions, d.Covered) :
    (entered ((Plan.patternMember c).roll roll)).Perm (c.due (s :: above)) := by
  have direct (shorthand : c.kind ≠ "shorthand_property_identifier_pattern")
      (notDefault : Lineage.isShorthandDefault ⟨c, s :: above⟩ = false)
      (covered : ∀ d ∈ (Plan.convert c).conversions, d.Covered) :
      (entered ((Plan.convert c).roll roll)).Perm (c.due (s :: above)) := by
    refine covered c (List.mem_singleton_self c) _ regular ⟨?_, notDefault, ?_⟩
    · simp [Lineage.isShorthand, pattern, shorthand]
    · rw [Lineage.isDefaultName, plain.shorthandDefault, Bool.and_false]
  unfold Plan.patternMember at covered ⊢
  by_cases shorthand : c.kind = "shorthand_property_identifier_pattern"
  · rw [if_pos shorthand]
    exact shorthandProperty_covered (by simp [Lineage.isShorthand, pattern, shorthand])
  rw [if_neg shorthand] at covered ⊢
  by_cases assignment : c.kind = "object_assignment_pattern"
  · rw [if_pos assignment] at covered ⊢
    cases hl : c.field? "left" with
    | none =>
      rw [hl] at covered
      exact direct shorthand (by simp [Lineage.isShorthandDefault, hl]) covered
    | some left =>
      simp only [hl] at covered ⊢
      by_cases name : left.kind = "shorthand_property_identifier_pattern"
      · rw [if_pos name] at covered ⊢
        refine shorthandDefault_covered ?_ regular hl fun d hd => covered d ?_
        · simp [Lineage.isShorthandDefault, pattern, assignment, hl, name]
        · simpa [Plan.shorthandDefault, Plan.conversions, conversionsAll,
            conversionsAll_map_convert, reading] using hd
      · rw [if_neg name] at covered ⊢
        exact direct shorthand (by simp [Lineage.isShorthandDefault, hl, name]) covered
  · rw [if_neg assignment] at covered ⊢
    exact direct shorthand (by simp [Lineage.isShorthandDefault, assignment]) covered

/-! ## Constructs -/

/-- Children among which are all phrases are converted one after another. -/
theorem filter_covered {p : Site → Bool} {f : Site → Plan}
    (regular : ∀ c ∈ s.children, c.Regular (s :: above))
    (phrases : ∀ c ∈ s.children, c.isPhrase → c.kind ≠ "hash_bang_line" → p c)
    (member : ∀ c ∈ s.children, (∀ d ∈ (f c).conversions, d.Covered) →
      (entered ((f c).roll roll)).Perm (c.due (s :: above)))
    (covered : ∀ d ∈ conversionsAll ((s.children.filter p).map f), d.Covered) :
    (entered (rollAll roll ((s.children.filter p).map f))).Perm
      (s.children.flatMap (·.due (s :: above))) := by
  rw [rollAll_map, entered_flatMap, due_children regular phrases]
  refine List.Perm.flatMap_left _ fun c hc => ?_
  refine member c (List.mem_filter.1 hc).1 fun d hd => covered d ?_
  rw [conversionsAll_map]
  exact List.mem_flatMap.2 ⟨c, hc, hd⟩

theorem convert_covered (regular : ∀ c ∈ s.children, c.Regular (s :: above))
    (plain : ∀ c ∈ s.children, Lineage.IsPlain ⟨c, s :: above⟩) :
    ∀ c ∈ s.children, (∀ d ∈ (Plan.convert c).conversions, d.Covered) →
      (entered ((Plan.convert c).roll roll)).Perm (c.due (s :: above)) :=
  fun c hc covered =>
    covered c (List.mem_singleton_self c) _ (regular c hc) (plain c hc)

/-- Whether plans convert certain sites and enter no other phrases. -/
def Converting (plans : List Plan) (sites : List Site) : Prop :=
  entered (rollAll roll plans) = entered (sites.flatMap roll) ∧ conversionsAll plans = sites

theorem converting_sites (sites : List Site) : Converting (sites.map .convert) sites :=
  ⟨by rw [rollAll_map_convert], conversionsAll_map_convert sites⟩

theorem Converting.append {as bs : List Plan} {xs ys : List Site} (h : Converting as xs)
    (h' : Converting bs ys) : Converting (as ++ bs) (xs ++ ys) := by
  refine ⟨?_, ?_⟩
  · rw [rollAll_append, entered_append, h.1, h'.1, List.flatMap_append, entered_append]
  · rw [conversionsAll_append, h.2, h'.2]

/-- An entry for a piece of source stands for no phrase. -/
theorem Converting.spanned {plans : List Plan} {sites : List Site} (h : Converting plans sites)
    (name : String) (first : Site) (stop : Nat) :
    Converting [.node (.spanned name first stop) none plans] sites := by
  refine ⟨?_, ?_⟩
  · rw [rollAll_node, rollAll_nil, List.append_nil]
    exact h.1
  · rw [conversionsAll, conversionsAll, List.append_nil]
    exact h.2

theorem converting_forIn (s : Site) :
    Converting (plan s .forInStatement) ((s.readFields .forInStatement).flatMap s.reading) := by
  have rest : Converting ((s.reading ("right", .first) ++ s.reading ("body", .first)).map .convert)
      ([("right", .first), ("body", .first)].flatMap s.reading) := by
    simpa using converting_sites (s.reading ("right", .first) ++ s.reading ("body", .first))
  rw [plan, readFields]
  cases hl : s.field? "left" with
  | none => simpa [reading, hl] using rest
  | some left =>
    cases hk : s.field? "kind" with
    | none =>
      have head := (converting_sites [left]).append rest
      simpa [Plan.headTarget, reading, hl, hk] using head
    | some keyword =>
      have head : Converting [Plan.headDeclaration keyword left (s.field? "value")]
          (left :: (s.field? "value").toList) :=
        ((converting_sites _).spanned _ _ _).spanned _ _ _
      simpa [Plan.headTarget, reading, hl, hk] using head.append rest

theorem converting_method (s : Site) :
    Converting (plan s .methodDefinition) ((s.readFields .methodDefinition).flatMap s.reading) := by
  have name := converting_sites (s.reading ("name", .first))
  rw [plan, readFields]
  cases hp : s.field? "parameters" with
  | none => simpa [hp] using name
  | some parameters =>
    cases hb : s.field? "body" with
    | none => simpa [hp, hb] using name
    | some body =>
      have function : Converting [Plan.methodFunction s parameters body]
          (parameters.members ++ [body]) := (converting_sites _).spanned _ _ _
      simpa [reading, hp, hb] using name.append function

/-- A node is converted with what stands in its fields. -/
theorem fields_covered {plans : List Plan} (regular : s.Regular above)
    (leaf : s.hasKind GrammarKind.isLeaf = false)
    (plain : ∀ c ∈ s.children, Lineage.IsPlain ⟨c, s :: above⟩) (reads : s.readsPhrases kind)
    (converting : Converting plans ((s.readFields kind).flatMap s.reading))
    (covered : ∀ d ∈ conversionsAll plans, d.Covered) :
    (entered (rollAll roll plans)).Perm (s.children.flatMap (·.due (s :: above))) := by
  rw [converting.2] at covered
  rw [converting.1]
  exact readings_covered regular leaf plain reads covered

/-- The parts of a construct are entered as it is due to its children. -/
theorem plan_covered (regular : s.Regular above) (plain : Lineage.IsPlain ⟨s, above⟩)
    (kindOf : GrammarKind.ofName? s.kind = some kind) (convertible : kind.isConvertible)
    (construct : kind.isTransparent = false) (nonleaf : kind.isLeaf = false)
    (covered : ∀ d ∈ conversionsAll (plan s kind), d.Covered) :
    (entered (rollAll roll (plan s kind))).Perm (s.children.flatMap (·.due (s :: above))) := by
  have leaf : s.hasKind GrammarKind.isLeaf = false := (hasKind_eq kindOf _).trans nonleaf
  have conforms := conformsAs_of_regular regular kindOf
  have below : ∀ c ∈ s.children, c.Regular (s :: above) := fun _ => regular.child leaf
  have children (other : kind ≠ .object ∧ kind ≠ .objectPattern) :
      ∀ c ∈ s.children, Lineage.IsPlain ⟨c, s :: above⟩ :=
    fun _ _ => plain_child plain kindOf other
  -- Most kinds are read field by field. The others pick their members or have entries between.
  cases kind with
  | program | hashBangLine | comment | htmlComment | switchBody | formalParameters | arguments
  | lexicalPart | unsupported => cases convertible
  | parenthesizedExpression | elseClause | finallyClause | computedPropertyName => cases construct
  | keywordLiteral | identifier | propertyIdentifier | shorthandPropertyIdentifier
  | shorthandPropertyIdentifierPattern | statementIdentifier | undefined | number | string
  | regex => cases nonleaf
  | expressionStatement | throwStatement | returnStatement | yieldExpression =>
    rw [plan, firstMember?_toList (of_decide_eq_true conforms), members] at covered ⊢
    exact filter_covered below (fun _ _ => member_of_phrase)
      (convert_covered below (children (by decide))) covered
  | variableDeclaration | lexicalDeclaration =>
    rw [plan, members, List.filter_filter] at covered ⊢
    refine filter_covered below (fun c hc phrase line => Bool.and_eq_true_iff.2 ⟨?_, ?_⟩)
      (convert_covered below (children (by decide))) covered
    · exact List.all_eq_true.1 conforms c (List.mem_filter.2 ⟨hc, phrase⟩)
    · exact member_of_phrase phrase line
  | statementBlock | sequenceExpression =>
    rw [plan, members] at covered ⊢
    exact filter_covered below (fun _ _ => member_of_phrase)
      (convert_covered below (children (by decide))) covered
  | array | arrayPattern =>
    rw [plan, tokens, List.filter_filter] at covered ⊢
    exact filter_covered below (fun _ _ phrase _ => phrase)
      (convert_covered below (children (by decide))) covered
  | object =>
    exact filter_covered below (fun _ _ => member_of_phrase)
      (fun c hc => objectMember_covered (name_of_kind kindOf (by decide)) plain
        (below c hc)) covered
  | objectPattern =>
    exact filter_covered below (fun _ _ => member_of_phrase)
      (fun c hc => patternMember_covered (name_of_kind kindOf (by decide)) plain
        (below c hc)) covered
  | forInStatement =>
    exact fields_covered regular leaf (children (by decide)) conforms (converting_forIn s) covered
  | methodDefinition =>
    exact fields_covered regular leaf (children (by decide)) conforms (converting_method s) covered
  | _ =>
    exact fields_covered regular leaf (children (by decide)) conforms (converting_sites _) covered

/-- A wrapper enters nothing of its own. -/
theorem wrapper_covered (regular : s.Regular above) (plain : Lineage.IsPlain ⟨s, above⟩)
    (kindOf : GrammarKind.ofName? s.kind = some kind) (transparent : kind.isTransparent)
    (covered : ∀ d ∈ conversionsAll (s.firstMember?.toList.map .convert), d.Covered) :
    (entered (rollAll roll (s.firstMember?.toList.map .convert))).Perm (s.due above) := by
  have own : s.isEntered = false := by
    simp [isEntered, hasKind_eq kindOf, transparent]
  have leaf : s.hasKind GrammarKind.isLeaf = false := by
    rw [hasKind_eq kindOf]
    cases kind <;> first | rfl | cases transparent
  have one : s.phrases.length ≤ 1 := by
    have conforms := conformsAs_of_regular regular kindOf
    cases kind <;> first | exact of_decide_eq_true conforms | cases transparent
  have other : kind ≠ .object ∧ kind ≠ .objectPattern := by
    constructor <;> rintro rfl <;> cases transparent
  have below : ∀ c ∈ s.children, c.Regular (s :: above) := fun _ => regular.child leaf
  rw [firstMember?_toList one, members] at covered ⊢
  rw [due_eq, share_eq_nil own, leaf, if_neg (by simp), List.nil_append]
  exact filter_covered below (fun _ _ => member_of_phrase)
    (convert_covered below fun _ _ => plain_child plain kindOf other) covered

/-- A construct is entered before its parts. -/
theorem construct_covered (regular : s.Regular above) (plain : Lineage.IsPlain ⟨s, above⟩)
    (kindOf : GrammarKind.ofName? s.kind = some kind) (convertible : kind.isConvertible)
    (construct : kind.isTransparent = false)
    (covered : ∀ d ∈ conversionsAll (plan s kind), d.Covered) :
    (entered (rollAll roll [.node (.documented s) none (plan s kind)])).Perm (s.due above) := by
  have parts : entered (rollAll roll [.node (.documented s) none (plan s kind)]) =
      [s].filter isEntered ++ entered (rollAll roll (plan s kind)) := by
    rw [rollAll_node, rollAll_nil, List.append_nil]
    exact entered_append [.documented s] _
  rw [parts, due_eq, plain.share, hasKind_eq kindOf]
  refine List.Perm.append_left _ ?_
  cases leaf : kind.isLeaf with
  | true =>
    have none : plan s kind = [] := by
      cases kind <;> first | rfl | cases leaf
    rw [none]
    exact List.Perm.refl _
  | false => exact plan_covered regular plain kindOf convertible construct leaf covered

/-- A node is covered if all that is converted for it is. -/
theorem covered_of_frame (convertible : s.IsConvertible)
    (covered : ∀ d ∈ conversionsAll (frame s), d.Covered) : s.Covered := by
  obtain ⟨kind, kindOf, convertible⟩ := convertible
  have kindOf : GrammarKind.ofName? s.kind = some kind := kindOf
  intro above regular plain
  rw [roll_eq]
  unfold frame at covered ⊢
  simp only [kindOf] at covered ⊢
  by_cases transparent : kind.isTransparent
  · rw [if_pos transparent] at covered ⊢
    exact wrapper_covered regular plain kindOf transparent covered
  · rw [if_neg transparent] at covered ⊢
    refine construct_covered regular plain kindOf convertible (by simpa using transparent) ?_
    simpa [conversionsAll, Plan.conversions] using covered

end ParseTree.Site

/-! ## Whole programs -/

/-- All that is converted is covered. -/
theorem Converts.covered {ctx : BuildContext} {plans : List Plan} {nodes : List Node}
    {st st' : BuildState} (h : Converts ctx plans st nodes st') :
    ∀ s ∈ conversionsAll plans, s.Covered := by
  induction h with
  | nil => exact fun s hs => (List.not_mem_nil hs).elim
  | @convert s plans _ _ _ _ _ convertible _ _ ihs ihp =>
    intro d hd
    rcases List.mem_append.1 hd with hd | hd
    · rw [List.mem_singleton.1 hd]
      exact Site.covered_of_frame convertible ihs
    · exact ihp d hd
  | node _ _ _ _ ihp ihr =>
    intro d hd
    rcases List.mem_append.1 hd with hd | hd
    · exact ihp d hd
    · exact ihr d hd

namespace ParseTree

variable {root : ParseTree}

/-- A program that conforms is entered as it is due to the nodes below its root. -/
theorem root_covered (conforming : root.Conforming)
    (covered : ∀ s ∈ (rootSite root).members, s.Covered) :
    (entered root.roll).Perm (root.lineages.flatMap Lineage.share) := by
  obtain ⟨program, conforms⟩ := conforming
  have kindOf : GrammarKind.ofName? (rootSite root).kind = some .program :=
    congrArg GrammarKind.ofName? program
  have lineages : root.lineages = (rootSite root).children.flatMap (·.lineages [rootSite root]) :=
    forestLineages_eq none [rootSite root] root.children
  have regular : ∀ c ∈ (rootSite root).children, c.Regular [rootSite root] := fun c hc l hl =>
    conforms l (lineages ▸ List.mem_flatMap.2 ⟨c, hc, hl⟩)
  rw [lineages, List.flatMap_assoc]
  -- The root is not entered and need not be a phrase, so only its children are looked at.
  refine List.Perm.trans ?_
    (List.Perm.of_eq (Site.due_children regular fun c _ => Site.member_of_phrase).symm)
  refine Site.sites_covered covered (fun c hc => regular c (List.mem_filter.1 hc).1) fun c _ => ?_
  exact Site.plain_child ⟨rfl, rfl, rfl⟩ kindOf (by decide)

end ParseTree

/-- After a build of a conforming tree with distinct nodes that succeeds, every phrase below the
root has as many entries of the identity table as are due to it: one, or more for the short forms of
properties. What is exempt are wrappers, lists that belong to the construct around them, interpreter
lines and the inside of leaves. So no phrase is dropped. -/
theorem phrases_entered (session : BuildSession) (source : Source) (root : ParseTree) (p : Program)
    (h : (session.build source root).1 = .ok p)
    (distinct : (root.preorder.map fun t => t.label.id).Nodup) (conforming : root.Conforming) :
    ∀ l ∈ root.lineages, l.site.isEntered →
      ((session.build source root).2.state.table.origins.toList.countP fun o =>
        o.treeId == some l.site.id) = l.entries := by
  intro l hl phrase
  obtain ⟨-, body, -⟩ := @BuildContext.build_converts ⟨source, session.style⟩ root p h
  have table : (session.build source root).2.state.table.origins.toList =
      root.roll.map (·.origin ⟨source, session.style⟩) := by
    rw [ParseTree.roll, ← rollAll_map_convert]
    exact body.table_eq
  have distinct : ((root.preorderSites none).map Site.id).Nodup := by
    rw [← ParseTree.map_tree_preorderSites none root, List.map_map] at distinct
    exact distinct
  have covered := ParseTree.root_covered conforming
    (conversionsAll_map_convert (ParseTree.rootSite root).members ▸ body.covered)
  have sublist := root.lineages_sublist
  have member : l.site ∈ root.preorderSites none := sublist.subset (List.mem_map_of_mem hl)
  have shares : (root.lineages.map (·.site.id)).Nodup := by
    have := distinct.sublist (sublist.map Site.id)
    rwa [List.map_map] at this
  have ids : (root.roll.map (·.origin ⟨source, session.style⟩)).countP
        (fun o => o.treeId == some l.site.id) =
      (root.roll.filterMap Registration.site?).countP fun c => c.id == l.site.id := by
    rw [List.countP_map, List.countP_filterMap]
    refine List.countP_congr fun r _ => ?_
    cases r <;> simp [Registration.origin, Registration.site?]
  -- A registered node with the identity of a phrase is the phrase.
  have phrases : (root.roll.filterMap Registration.site?).countP (fun c => c.id == l.site.id) =
      (entered root.roll).countP fun c => c.id == l.site.id := by
    rw [entered, List.countP_filter]
    refine List.countP_congr fun c hc => ?_
    have same (id : c.id = l.site.id) : c = l.site :=
      List.inj_on_of_nodup_map distinct (ParseTree.mem_preorderSites_of_mem_roll hc) member id
    simp only [Bool.and_eq_true, beq_iff_eq]
    exact ⟨fun id => ⟨id, same id ▸ phrase⟩, And.left⟩
  calc _ = (entered root.roll).countP fun c => c.id == l.site.id := by rw [table, ids, phrases]
    _ = (root.lineages.flatMap Lineage.share).countP fun c => c.id == l.site.id :=
      covered.countP_eq _
    _ = l.entries := Lineage.countP_shares shares hl phrase

theorem loop_phrases_entered :
    (∃ p, ((BuildSession.start .single).build loopSource loopTree).1 = .ok p) ∧
      (loopTree.preorder.map fun t => t.label.id).Nodup ∧ loopTree.Conforming ∧
      ∀ l ∈ loopTree.lineages, l.site.isEntered →
        (((BuildSession.start .single).build loopSource loopTree).2.state.table.origins.toList.countP
          fun o => o.treeId == some l.site.id) = l.entries := by
  obtain ⟨p, hp⟩ := loop_builds
  have distinct : (loopTree.preorder.map fun t => t.label.id).Nodup := by decide
  have conforming : loopTree.Conforming := by decide
  exact ⟨⟨p, hp⟩, distinct, conforming,
    phrases_entered (.start .single) loopSource loopTree p hp distinct conforming⟩

end ScriptTree
