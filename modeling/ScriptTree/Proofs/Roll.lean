import ScriptTree.Proofs.Plan
import ScriptTree.Proofs.Sites

/-!
# The roll of a tree

`roll_eq` says that the roll of a site is the roll of its frame, so the bound on the levels does not
matter. `takers_roll_subperm`: a node of the parse tree looks for a documentation comment once at
most, because the parts of a construct lie in different places of its subtree. For the same reason
all entries of a roll start with nodes of the subtree (`first_mem_subtree_of_mem_roll`).
-/
namespace ScriptTree

open ParseTree (Site)

/-- Induction on plans: over the parts of a node and over the plans after it. -/
theorem plans_induct {motive : List Plan → Prop} (nil : motive [])
    (convert : ∀ s plans, motive plans → motive (.convert s :: plans))
    (node : ∀ entry key parts plans, motive parts → motive plans →
      motive (.node entry key parts :: plans)) : ∀ plans, motive plans
  | [] => nil
  | .convert s :: plans => convert s plans (plans_induct nil convert node plans)
  | .node entry key parts :: plans =>
    node entry key parts plans (plans_induct nil convert node parts)
      (plans_induct nil convert node plans)

section

variable (roll : Site → List Registration)

@[simp] theorem rollAll_nil : rollAll roll [] = [] := rfl

@[simp] theorem rollAll_convert (s : Site) (plans : List Plan) :
    rollAll roll (.convert s :: plans) = roll s ++ rollAll roll plans := rfl

@[simp] theorem rollAll_node (entry : Registration) (key : Option Site) (parts plans : List Plan) :
    rollAll roll (.node entry key parts :: plans) =
      entry :: (key.toList.map .bare ++ rollAll roll parts) ++ rollAll roll plans := rfl

theorem rollAll_append (as bs : List Plan) :
    rollAll roll (as ++ bs) = rollAll roll as ++ rollAll roll bs := by
  induction as with
  | nil => rfl
  | cons plan as ih => rw [List.cons_append, rollAll, ih, rollAll, List.append_assoc]

theorem rollAll_map (f : Site → Plan) (sites : List Site) :
    rollAll roll (sites.map f) = sites.flatMap fun s => (f s).roll roll := by
  induction sites with
  | nil => rfl
  | cons s sites ih => rw [List.map_cons, rollAll, ih, List.flatMap_cons]

theorem rollAll_map_convert (sites : List Site) :
    rollAll roll (sites.map .convert) = sites.flatMap roll :=
  rollAll_map roll .convert sites

end

/-! ## Territory -/

/-- The node of the parse tree that looks for a documentation comment. -/
def Registration.taker? : Registration → Option Site
  | documented s => some s
  | bare _ => none
  | spanned _ _ _ => none

mutual

/-- The nodes of the parse tree that look, or may look, for a documentation comment when a plan is
carried out. -/
def Plan.territory : Plan → List Site
  | .convert s => s.subtree
  | .node entry _ parts => entry.taker?.toList ++ territoryAll parts

/-- The nodes that may look for a documentation comment when plans are carried out. -/
def territoryAll : List Plan → List Site
  | [] => []
  | plan :: plans => plan.territory ++ territoryAll plans

end

@[simp] theorem territoryAll_nil : territoryAll [] = [] := rfl

@[simp] theorem territoryAll_convert (s : Site) (plans : List Plan) :
    territoryAll (.convert s :: plans) = s.subtree ++ territoryAll plans := rfl

@[simp] theorem territoryAll_node (entry : Registration) (key : Option Site)
    (parts plans : List Plan) :
    territoryAll (.node entry key parts :: plans) =
      entry.taker?.toList ++ territoryAll parts ++ territoryAll plans := rfl

theorem territoryAll_map (f : Site → Plan) (sites : List Site) :
    territoryAll (sites.map f) = sites.flatMap fun s => (f s).territory := by
  induction sites with
  | nil => rfl
  | cons s sites ih => rw [List.map_cons, territoryAll, ih, List.flatMap_cons]

theorem territoryAll_map_convert (sites : List Site) :
    territoryAll (sites.map .convert) = sites.flatMap Site.subtree :=
  territoryAll_map .convert sites

theorem territoryAll_append (as bs : List Plan) :
    territoryAll (as ++ bs) = territoryAll as ++ territoryAll bs := by
  induction as with
  | nil => rfl
  | cons plan as ih => rw [List.cons_append, territoryAll, ih, territoryAll, List.append_assoc]

/-- Plans that convert the same sites in the same way have the same roll. -/
theorem rollAll_congr {f g : Site → List Registration} {plans : List Plan}
    (h : ∀ c ∈ territoryAll plans, f c = g c) : rollAll f plans = rollAll g plans := by
  induction plans using plans_induct with
  | nil => rfl
  | convert s plans ih =>
    simp only [territoryAll_convert, List.mem_append] at h
    rw [rollAll_convert, rollAll_convert, h s (.inl s.mem_subtree_self), ih fun c hc => h c (.inr hc)]
  | node entry key parts plans ihp ihr =>
    simp only [territoryAll_node, List.mem_append] at h
    rw [rollAll_node, rollAll_node, ihp fun c hc => h c (.inl (.inr hc)), ihr fun c hc => h c (.inr hc)]

theorem reading_subtree_sublist (s : Site) (field : String × FieldUse) :
    ((s.reading field).flatMap Site.subtree).Sublist
      ((s.fieldChildren field.1).flatMap Site.subtree) := by
  obtain ⟨name, use⟩ := field
  have first := s.field?_sublist name
  have members := s.fieldMembers_sublist name
  cases use with
  | first => exact first.flatMap _
  | firstMember =>
    refine List.Sublist.flatMap (List.Sublist.trans ?_ members) _
    cases h : s.fieldMembers name <;> simp [Site.reading, h]
  | members => exact members.flatMap _
  | inside =>
    refine List.Sublist.trans ?_ (first.flatMap Site.subtree)
    rw [Site.reading, List.flatMap_assoc]
    refine List.Sublist.flatMap_right _ fun c _ => ?_
    refine ((c.members_sublist).flatMap _).trans ?_
    rw [← c.below_eq]
    exact List.sublist_cons_self _ _

theorem flatMap_subperm_flatMap {α β : Type} {f g : α → List β} (l : List α)
    (h : ∀ a ∈ l, (f a).Subperm (g a)) : (l.flatMap f).Subperm (l.flatMap g) := by
  induction l with
  | nil => exact List.Subperm.refl _
  | cons a l ih =>
    simp only [List.flatMap_cons]
    exact (h a List.mem_cons_self).append (ih fun b hb => h b (List.mem_cons_of_mem a hb))

theorem flatMap_subperm_of_subperm {α β : Type} (f : α → List β) {l₁ l₂ : List α}
    (h : l₁.Subperm l₂) : (l₁.flatMap f).Subperm (l₂.flatMap f) := by
  obtain ⟨l, hp, hs⟩ := h
  exact ⟨l.flatMap f, hp.flatMap_right f, hs.flatMap f⟩

/-- What is read from different fields lies in different subtrees. -/
theorem readings_subtree_subperm (s : Site) (reads : List (String × FieldUse))
    (hn : (reads.map Prod.fst).Nodup) :
    ((reads.flatMap s.reading).flatMap Site.subtree).Subperm s.below := by
  rw [List.flatMap_assoc, s.below_eq]
  refine (flatMap_subperm_flatMap reads fun field _ =>
    (reading_subtree_sublist s field).subperm).trans ?_
  have : (reads.flatMap fun field => (s.fieldChildren field.1).flatMap Site.subtree) =
      ((reads.map Prod.fst).flatMap s.fieldChildren).flatMap Site.subtree := by
    rw [List.flatMap_map, List.flatMap_assoc]
  rw [this]
  exact flatMap_subperm_of_subperm _ (ParseTree.flatMap_field_subperm hn s.children)

theorem reads_nodup (kind : GrammarKind) : (kind.reads.map Prod.fst).Nodup := by
  cases kind <;> decide

theorem reads_territory (s : Site) (kind : GrammarKind) :
    (territoryAll ((kind.reads.flatMap s.reading).map .convert)).Subperm s.below := by
  rw [territoryAll_map_convert]
  exact readings_subtree_subperm s kind.reads (reads_nodup kind)

theorem sublist_territory {s : Site} {sites : List Site} (h : sites.Sublist s.children) :
    (territoryAll (sites.map .convert)).Subperm s.below := by
  rw [territoryAll_map_convert, s.below_eq]
  exact (h.flatMap _).subperm

/-- Members of an object or of a pattern keep to their own subtrees. -/
theorem members_territory {s : Site} {f : Site → Plan}
    (h : ∀ c, (f c).territory.Sublist c.subtree) :
    (territoryAll (s.members.map f)).Subperm s.below := by
  rw [territoryAll_map, s.below_eq]
  exact ((List.Sublist.flatMap_right _ fun c _ => h c).trans
    (s.members_sublist.flatMap _)).subperm

theorem shorthandProperty_territory (s : Site) :
    (Plan.shorthandProperty s).territory.Sublist s.subtree :=
  List.Sublist.cons_cons s (List.nil_sublist _)

theorem objectMember_territory (s : Site) : (Plan.objectMember s).territory.Sublist s.subtree := by
  unfold Plan.objectMember
  split
  · exact shorthandProperty_territory s
  · exact List.Sublist.refl _

theorem shorthandDefault_territory (s left : Site) :
    (Plan.shorthandDefault s left).territory.Sublist s.subtree := by
  have right : (territoryAll ((s.field? "right").toList.map .convert)).Sublist s.below := by
    rw [territoryAll_map_convert, s.below_eq]
    exact ((s.field?_sublist "right").trans List.filter_sublist).flatMap _
  refine List.Sublist.cons_cons s ?_
  simpa [Registration.taker?] using right

theorem patternMember_territory (s : Site) : (Plan.patternMember s).territory.Sublist s.subtree := by
  unfold Plan.patternMember
  split
  · exact shorthandProperty_territory s
  split
  · split
    · split
      · exact shorthandDefault_territory s _
      · exact List.Sublist.refl _
    · exact List.Sublist.refl _
  · exact List.Sublist.refl _

theorem forInStatement_territory (s : Site) :
    (territoryAll (plan s .forInStatement)).Subperm s.below := by
  refine List.Subperm.trans (List.Sublist.subperm ?_)
    (readings_subtree_subperm s
      [("left", .first), ("value", .first), ("right", .first), ("body", .first)] (by decide))
  have head : (territoryAll ((s.field? "left").toList.map (.headTarget s))).Sublist
      ((s.reading ("left", .first)).flatMap Site.subtree ++
        (s.reading ("value", .first)).flatMap Site.subtree) := by
    simp only [Site.reading, territoryAll_map]
    cases s.field? "left" with
    | none => exact List.nil_sublist _
    | some left =>
      unfold Plan.headTarget
      cases s.field? "kind" with
      | none => simp [Plan.territory]
      | some keyword =>
        cases s.field? "value" <;>
          simp [Plan.headDeclaration, Plan.territory, Registration.taker?]
  simp only [plan, territoryAll_append, territoryAll_map_convert, List.flatMap_cons,
    List.flatMap_nil, List.flatMap_append, List.append_nil]
  simpa only [List.append_assoc] using head.append (List.Sublist.refl _)

theorem methodDefinition_territory (s : Site) :
    (territoryAll (plan s .methodDefinition)).Subperm s.below := by
  refine List.Subperm.trans (List.Sublist.subperm ?_)
    (readings_subtree_subperm s
      [("name", .first), ("parameters", .inside), ("body", .first)] (by decide))
  simp only [plan, territoryAll_append, territoryAll_map_convert, List.flatMap_cons,
    List.flatMap_nil, List.flatMap_append, List.append_nil]
  refine List.Sublist.append (List.Sublist.refl _) ?_
  simp only [Site.reading]
  cases s.field? "parameters" <;> cases s.field? "body" <;>
    simp [Plan.methodFunction, Registration.taker?, territoryAll_append, territoryAll_map_convert]

/-- The parts of a construct look for comments at different places below it. -/
theorem plan_territory (s : Site) (kind : GrammarKind) :
    (territoryAll (plan s kind)).Subperm s.below := by
  cases kind with
  | expressionStatement | throwStatement | returnStatement | yieldExpression =>
    exact sublist_territory s.firstMember?_sublist
  | variableDeclaration | lexicalDeclaration =>
    exact sublist_territory (List.filter_sublist.trans s.members_sublist)
  | statementBlock | sequenceExpression => exact sublist_territory s.members_sublist
  | array | arrayPattern => exact sublist_territory (List.filter_sublist.trans s.tokens_sublist)
  | object => exact members_territory objectMember_territory
  | objectPattern => exact members_territory patternMember_territory
  | forInStatement => exact forInStatement_territory s
  | methodDefinition => exact methodDefinition_territory s
  | _ => exact reads_territory s _

/-! ## The roll of a site -/

theorem frame_territory (s : Site) : (territoryAll (frame s)).Subperm s.subtree := by
  unfold frame
  cases GrammarKind.ofName? s.kind with
  | none => exact List.nil_subperm
  | some kind =>
    by_cases transparent : kind.isTransparent
    · simp only [transparent, if_true]
      exact (sublist_territory s.firstMember?_sublist).trans (List.sublist_cons_self _ _).subperm
    · simp only [transparent, Bool.false_eq_true, if_false, territoryAll_node, territoryAll,
        List.append_nil]
      exact (List.subperm_cons s).2 (plan_territory s kind)

/-- Ways to convert sites that agree below a site give one roll of its frame. -/
theorem rollAll_frame_congr {f g : Site → List Registration} {s : Site}
    (h : ∀ c ∈ s.below, f c = g c) : rollAll f (frame s) = rollAll g (frame s) := by
  unfold frame
  cases GrammarKind.ofName? s.kind with
  | none => rfl
  | some kind =>
    by_cases transparent : kind.isTransparent
    · simp only [transparent, if_true]
      exact rollAll_congr fun c hc => h c ((sublist_territory s.firstMember?_sublist).subset hc)
    · simp only [transparent, Bool.false_eq_true, if_false, rollAll_node]
      rw [rollAll_congr fun c hc => h c ((plan_territory s kind).subset hc)]
      rfl

/-- Every bound that is high enough gives the same roll. -/
theorem rollUpTo_stable {m n : Nat} {s : Site} (hm : s.tree.height ≤ m) (hn : s.tree.height ≤ n) :
    rollUpTo m s = rollUpTo n s := by
  have pos := s.height_pos
  induction m generalizing n s with
  | zero => omega
  | succ m ih =>
    cases n with
    | zero => omega
    | succ n =>
      refine rollAll_frame_congr fun c hc => ?_
      have below := Site.height_lt_of_mem_below hc
      exact ih (by omega) (by omega) (c.height_pos)

/-- The roll of a site is the roll of its frame. -/
theorem roll_eq (s : Site) : s.roll = rollAll Site.roll (frame s) := by
  have pos := s.height_pos
  unfold Site.roll
  rw [rollUpTo_stable (n := s.tree.height - 1 + 1) (Nat.le_refl _) (by omega), rollUpTo]
  refine rollAll_frame_congr fun c hc => ?_
  have below := Site.height_lt_of_mem_below hc
  exact rollUpTo_stable (by omega) (Nat.le_refl _)

theorem takers_rollAll_subperm {roll : Site → List Registration}
    (h : ∀ s, ((roll s).filterMap Registration.taker?).Subperm s.subtree) (plans : List Plan) :
    ((rollAll roll plans).filterMap Registration.taker?).Subperm (territoryAll plans) := by
  induction plans using plans_induct with
  | nil => exact List.nil_subperm
  | convert s plans ih =>
    rw [rollAll_convert, territoryAll_convert, List.filterMap_append]
    exact (h s).append ih
  | node entry key parts plans ihp ihr =>
    have keys : (key.toList.map Registration.bare).filterMap Registration.taker? = [] := by
      cases key <;> rfl
    have cons (rs : List Registration) : (entry :: rs).filterMap Registration.taker? =
        entry.taker?.toList ++ rs.filterMap Registration.taker? := by
      cases entry <;> rfl
    rw [rollAll_node, territoryAll_node, List.filterMap_append, cons, List.filterMap_append, keys,
      List.nil_append]
    exact ((List.subperm_append_left _).2 ihp).append ihr

/-- A node of the parse tree looks for a documentation comment once at most. -/
theorem takers_roll_subperm (s : Site) :
    (s.roll.filterMap Registration.taker?).Subperm s.subtree := by
  have levels : ∀ n s, ((rollUpTo n s).filterMap Registration.taker?).Subperm s.subtree := by
    intro n
    induction n with
    | zero => exact fun s => List.nil_subperm
    | succ n ih => exact fun s => (takers_rollAll_subperm ih (frame s)).trans (frame_territory s)
  exact levels s.tree.height s

theorem takers_root_subperm (root : ParseTree) :
    (root.roll.filterMap Registration.taker?).Subperm (root.preorderSites none) := by
  rw [ParseTree.preorderSites_eq, ParseTree.roll, List.filterMap_flatMap]
  refine (flatMap_subperm_flatMap _ fun s _ => takers_roll_subperm s).trans ?_
  refine (List.Sublist.trans ?_ (List.sublist_cons_self _ _)).subperm
  rw [Site.below_eq]
  exact (Site.members_sublist _).flatMap _

/-! ## Who is entered, and who looks for a comment -/

/-- The node of the parse tree that an entry stands for. -/
def Registration.site? : Registration → Option Site
  | documented s => some s
  | bare s => some s
  | spanned _ _ _ => none

/-- A site that is no wrapper has an output node of its own. -/
def ParseTree.Site.IsConstruct (s : Site) : Prop :=
  ∃ kind ∈ GrammarKind.ofName? s.kind, kind.isTransparent = false

/-- Whether an entry belongs to a property that a member of an object or of a pattern stands for: it
is for the member, or for the name that has a default value there. -/
def Registration.IsShort (r : Registration) (member : Site) : Prop :=
  member.IsConstruct ∧ (r = .documented member ∨ r = .bare member) ∨
    ∃ left, member.field? "left" = some left ∧ r = .bare left

/-- An entry of a roll is in a plan, or in the roll of a site in its territory. -/
theorem mem_rollAll {roll : Site → List Registration} {plans : List Plan} {r : Registration}
    (h : r ∈ rollAll roll plans) :
    r ∈ rollAll (fun _ => []) plans ∨ ∃ s ∈ territoryAll plans, r ∈ roll s := by
  induction plans using plans_induct with
  | nil => exact .inl h
  | convert s plans ih =>
    simp only [rollAll_convert, territoryAll_convert, List.mem_append, List.nil_append] at h ⊢
    rcases h with h | h
    · exact .inr ⟨s, .inl s.mem_subtree_self, h⟩
    · exact (ih h).imp_right fun ⟨c, hc, h⟩ => ⟨c, .inr hc, h⟩
  | node entry key parts plans ihp ihr =>
    simp only [rollAll_node, territoryAll_node, List.mem_append, List.mem_cons] at h ⊢
    rcases h with (h | h | h) | h
    · exact .inl (.inl (.inl h))
    · exact .inl (.inl (.inr (.inl h)))
    · exact (ihp h).imp (fun h => .inl (.inr (.inr h))) fun ⟨c, hc, h⟩ => ⟨c, .inl (.inr hc), h⟩
    · exact (ihr h).imp .inr fun ⟨c, hc, h⟩ => ⟨c, .inr hc, h⟩

/-- The entries of a plan itself, without those of the sites that it converts. -/
def Plan.own (plan : Plan) : List Registration :=
  plan.roll fun _ => []

theorem rollAll_map_own (f : Site → Plan) (sites : List Site) :
    rollAll (fun _ => []) (sites.map f) = sites.flatMap fun s => (f s).own :=
  rollAll_map _ f sites

theorem rollAll_convert_own (sites : List Site) :
    rollAll (fun _ => []) (sites.map .convert) = [] := by
  rw [rollAll_map_convert]
  simp

section

variable {s : Site} {r : Registration}

theorem shorthandProperty_own (hs : s.IsConstruct) (h : r ∈ (Plan.shorthandProperty s).own) :
    r.IsShort s := by
  have entries : r ∈ [Registration.documented s, .bare s, .bare s] := h
  exact .inl ⟨hs, by simpa using entries⟩

theorem shorthandDefault_own {left : Site} (hs : s.IsConstruct) (hl : s.field? "left" = some left)
    (h : r ∈ (Plan.shorthandDefault s left).own) : r.IsShort s := by
  have entries : r ∈ Registration.documented s :: .bare left :: .bare s ::
      .bare left :: rollAll (fun _ => []) ((s.field? "right").toList.map .convert) := by
    simpa [Plan.own, Plan.shorthandDefault, Plan.roll, rollAll] using h
  rw [rollAll_convert_own] at entries
  simp only [List.mem_cons, List.not_mem_nil, or_false] at entries
  rcases entries with rfl | rfl | rfl | rfl
  · exact .inl ⟨hs, .inl rfl⟩
  · exact .inr ⟨left, hl, rfl⟩
  · exact .inl ⟨hs, .inr rfl⟩
  · exact .inr ⟨left, hl, rfl⟩

theorem objectMember_own (h : r ∈ (Plan.objectMember s).own) : r.IsShort s := by
  unfold Plan.objectMember at h
  by_cases hs : s.kind = "shorthand_property_identifier"
  · rw [if_pos hs] at h
    exact shorthandProperty_own ⟨.shorthandPropertyIdentifier, by rw [hs]; rfl, rfl⟩ h
  · rw [if_neg hs] at h
    exact (List.not_mem_nil h).elim

theorem patternMember_own (h : r ∈ (Plan.patternMember s).own) : r.IsShort s := by
  unfold Plan.patternMember at h
  by_cases hs : s.kind = "shorthand_property_identifier_pattern"
  · rw [if_pos hs] at h
    exact shorthandProperty_own ⟨.shorthandPropertyIdentifierPattern, by rw [hs]; rfl, rfl⟩ h
  rw [if_neg hs] at h
  by_cases hd : s.kind = "object_assignment_pattern"
  · rw [if_pos hd] at h
    cases hl : s.field? "left" with
    | none =>
      rw [hl] at h
      exact (List.not_mem_nil h).elim
    | some left =>
      simp only [hl] at h
      by_cases hk : left.kind = "shorthand_property_identifier_pattern"
      · rw [if_pos hk] at h
        exact shorthandDefault_own ⟨.objectAssignmentPattern, by rw [hd]; rfl, rfl⟩ hl h
      · rw [if_neg hk] at h
        exact (List.not_mem_nil h).elim
  · rw [if_neg hd] at h
    exact (List.not_mem_nil h).elim

/-- The entries of what a loop goes through are for pieces of source, from the keyword or the target
on. -/
theorem headTarget_own {left : Site} (hl : left ∈ s.children)
    (h : r ∈ (Plan.headTarget s left).own) : r.site? = none ∧ r.first ∈ s.children := by
  unfold Plan.headTarget at h
  cases hk : s.field? "kind" with
  | none =>
    rw [hk] at h
    exact (List.not_mem_nil h).elim
  | some keyword =>
    simp only [hk, Plan.own, Plan.headDeclaration, Plan.roll, rollAll, rollAll_convert_own] at h
    simp at h
    rcases h with rfl | rfl
    · exact ⟨rfl, Site.mem_children_of_field? hk⟩
    · exact ⟨rfl, hl⟩

theorem methodFunction_own {parameters body : Site} (hp : parameters ∈ s.children)
    (h : r ∈ (Plan.methodFunction s parameters body).own) :
    r.site? = none ∧ r.first ∈ s.children := by
  rw [Plan.own, Plan.methodFunction, Plan.roll, rollAll_convert_own] at h
  obtain rfl := List.mem_singleton.1 h
  exact ⟨rfl, hp⟩

/-- Of the parts of a construct only short members and pieces of source that begin with a child have
entries of the plan. -/
theorem plan_own {kind : GrammarKind} (h : r ∈ rollAll (fun _ => []) (plan s kind)) :
    (r.site? = none ∧ r.first ∈ s.children) ∨ ∃ c ∈ s.members, r.IsShort c := by
  have none {sites : List Site} (h : r ∈ rollAll (fun _ => []) (sites.map .convert)) :
      (r.site? = none ∧ r.first ∈ s.children) ∨ ∃ c ∈ s.members, r.IsShort c := by
    rw [rollAll_convert_own] at h
    exact (List.not_mem_nil h).elim
  cases kind with
  | object =>
    rw [plan, rollAll_map_own] at h
    obtain ⟨c, hc, h⟩ := List.mem_flatMap.1 h
    exact .inr ⟨c, hc, objectMember_own h⟩
  | objectPattern =>
    rw [plan, rollAll_map_own] at h
    obtain ⟨c, hc, h⟩ := List.mem_flatMap.1 h
    exact .inr ⟨c, hc, patternMember_own h⟩
  | forInStatement =>
    rw [plan, rollAll_append, rollAll_map_own, List.mem_append] at h
    rcases h with h | h
    · obtain ⟨left, hl, h⟩ := List.mem_flatMap.1 h
      exact .inl (headTarget_own (Site.mem_children_of_field? (Option.mem_toList.1 hl)) h)
    · exact none h
  | methodDefinition =>
    rw [plan, rollAll_append, List.mem_append] at h
    rcases h with h | h
    · exact none h
    · cases hp : s.field? "parameters" with
      | none => simp [hp] at h
      | some parameters =>
        cases hb : s.field? "body" with
        | none => simp [hp, hb] at h
        | some body =>
          simp only [hp, hb, rollAll, List.append_nil] at h
          exact .inl (methodFunction_own (Site.mem_children_of_field? hp) h)
  | _ => exact none h

theorem frame_own (h : r ∈ rollAll (fun _ => []) (frame s)) :
    (s.IsConstruct ∧ r = .documented s) ∨ (r.site? = none ∧ r.first ∈ s.children) ∨
      ∃ c ∈ s.members, r.IsShort c := by
  unfold frame at h
  cases hk : GrammarKind.ofName? s.kind with
  | none =>
    rw [hk] at h
    exact (List.not_mem_nil h).elim
  | some kind =>
    simp only [hk] at h
    by_cases transparent : kind.isTransparent
    · simp only [transparent, if_true, rollAll_convert_own] at h
      exact (List.not_mem_nil h).elim
    · simp only [transparent, Bool.false_eq_true, if_false] at h
      have entries : r ∈ .documented s :: rollAll (fun _ => []) (plan s kind) := by
        simpa using h
      rcases List.mem_cons.1 entries with h | h
      · exact .inl ⟨⟨kind, hk, by simpa using transparent⟩, h⟩
      · exact .inr (plan_own h)

end

/-- Only nodes that are converted to an output node of their own look for a comment. -/
theorem documented_isConstruct {s d : Site} (h : .documented d ∈ s.roll) : d.IsConstruct := by
  have levels : ∀ n s, .documented d ∈ rollUpTo n s → d.IsConstruct := by
    intro n
    induction n with
    | zero => exact fun s h => (List.not_mem_nil h).elim
    | succ n ih =>
      intro s h
      rcases mem_rollAll h with h | ⟨c, -, h⟩
      · obtain ⟨hs, h⟩ | ⟨h, -⟩ | ⟨c, -, ⟨hc, h | h⟩ | ⟨left, -, h⟩⟩ := frame_own h
        · cases h
          exact hs
        · cases h
        · cases h
          exact hc
        · cases h
        · cases h
      · exact ih c h
  exact levels s.tree.height s h

/-- What is entered for a node starts with that node. -/
theorem Registration.first_of_site? {r : Registration} {c : Site} (h : r.site? = some c) :
    r.first = c := by
  cases r with
  | documented s => exact Option.some.inj h
  | bare s => exact Option.some.inj h
  | spanned kind first stop => cases h

/-- The entries in the roll of a site start with nodes below the site. -/
theorem first_mem_subtree_of_mem_roll {s : Site} {r : Registration} (h : r ∈ s.roll) :
    r.first ∈ s.subtree := by
  have levels : ∀ n s, r ∈ rollUpTo n s → r.first ∈ s.subtree := by
    intro n
    induction n with
    | zero => exact fun s h => (List.not_mem_nil h).elim
    | succ n ih =>
      intro s h
      rcases mem_rollAll h with h | ⟨d, hd, h⟩
      · have child {c m : Site} (hm : m ∈ c.children) {x : Site} (hx : x ∈ m.subtree) :
            x ∈ c.subtree :=
          List.mem_cons_of_mem _ (Site.mem_below.2 ⟨m, hm, hx⟩)
        have member {m : Site} (hm : m ∈ s.members) {x : Site} (hx : x ∈ m.subtree) :
            x ∈ s.subtree :=
          child (s.members_sublist.subset hm) hx
        obtain ⟨-, rfl⟩ | ⟨-, h⟩ | ⟨m, hm, ⟨-, rfl | rfl⟩ | ⟨left, hl, rfl⟩⟩ := frame_own h
        · exact s.mem_subtree_self
        · exact child h r.first.mem_subtree_self
        · exact member hm m.mem_subtree_self
        · exact member hm m.mem_subtree_self
        · exact member hm (child (Site.mem_children_of_field? hl) left.mem_subtree_self)
      · exact Site.subtree_subset ((frame_territory s).subset hd) (ih d h)
  exact levels s.tree.height s h

theorem ParseTree.first_mem_preorderSites {root : ParseTree} {r : Registration}
    (h : r ∈ root.roll) : r.first ∈ root.preorderSites none := by
  obtain ⟨m, hm, hr⟩ := List.mem_flatMap.1 h
  rw [preorderSites_eq]
  exact List.mem_cons_of_mem _
    (Site.mem_below.2 ⟨m, Site.members_sublist _ |>.subset hm, first_mem_subtree_of_mem_roll hr⟩)

theorem ParseTree.mem_preorderSites_of_mem_roll {root : ParseTree} {c : Site}
    (h : c ∈ root.roll.filterMap Registration.site?) : c ∈ root.preorderSites none := by
  obtain ⟨r, hr, hc⟩ := List.mem_filterMap.1 h
  exact Registration.first_of_site? hc ▸ first_mem_preorderSites hr

end ScriptTree
