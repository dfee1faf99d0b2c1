import DocStore.Proofs.Caller.Containment
import Mathlib.Data.List.Induction
import Mathlib.Tactic.Choose
/-!
# Containment as a map of nodes

The nodes of a tree are named by their positions: the steps that lead to them from the root, each by
a key or by the number of an item.  An embedding of a query into a document sends the nodes of the
query to nodes of the document.  The root goes to the root, an object to an object and its member of
a key to the member of the same key, an array to an array and every item of it to some item, and a
scalar to a scalar of the same type and value.

A document contains a query exactly when there is an embedding (`contains_iff_nonempty_embedding`).
From left to right the embedding is put together from embeddings of the members
(`Embedding.exists_of_members`); from right to left it is restricted to the members
(`Embedding.restrict`).
-/

set_option autoImplicit false

namespace DocStore

/-- The value of a finite number, in steps with a sign; both zeros have the same. -/
def Number.signedSteps? : Number → Option Int
  | .finite negative magnitude =>
      some (if negative then -(magnitude.steps : Int) else magnitude.steps)
  | _ => none

namespace Scalar

/-- Scalars of one type with equal values. -/
inductive Equal : Scalar → Scalar → Prop where
  | null : Equal .null .null
  | boolean (value : Bool) : Equal (.boolean value) (.boolean value)
  | number {first second : Number} {steps : Int} (left : first.signedSteps? = some steps)
      (right : second.signedSteps? = some steps) : Equal (.number first) (.number second)
  | string (value : String) : Equal (.string value) (.string value)

theorem numbers_same_iff (negative negative' : Bool) (magnitude magnitude' : Magnitude) :
    (Number.finite negative magnitude).same (.finite negative' magnitude') = true
      ↔ (Number.finite negative magnitude).signedSteps?
          = (Number.finite negative' magnitude').signedSteps? := by
  obtain ⟨steps, isDouble⟩ := magnitude
  obtain ⟨steps', isDouble'⟩ := magnitude'
  simp only [Number.same, Number.signedSteps?, Bool.and_eq_true, Bool.or_eq_true, beq_iff_eq,
    Magnitude.mk.injEq, Option.some.injEq]
  cases negative <;> cases negative' <;> simp <;> omega

/-- The comparison of scalars finds out whether finite ones are equal. -/
theorem same_iff_equal {value wanted : Scalar} (finite : value.IsFinite)
    (finite' : wanted.IsFinite) : value.same wanted = true ↔ Equal value wanted := by
  constructor
  · intro same
    cases value <;> cases wanted <;> simp [Scalar.same] at same
    case null.null => exact .null
    case boolean.boolean => subst same; exact .boolean _
    case string.string => subst same; exact .string _
    case number.number first second =>
        cases first <;> cases second <;> simp [IsFinite, Number.isFinite] at finite finite'
        exact .number rfl ((numbers_same_iff ..).mp same).symm
  · intro equal
    cases equal with
    | null => rfl
    | boolean value => simp [Scalar.same]
    | string value => simp [Scalar.same]
    | @number first second steps left right =>
        cases first <;> cases second <;> simp [IsFinite, Number.isFinite] at finite finite'
        exact (numbers_same_iff ..).mpr (left.trans right.symm)

end Scalar

namespace Tree

variable {α : Type}

/-! ## Nodes -/

/-- A step from a container to a member of it. -/
inductive Step where
  | key (key : String)
  | item (number : Nat)
deriving DecidableEq

/-- The member that a step leads to. -/
def member? : Tree α → Step → Option (Tree α)
  | .object fields, .key key => fields.lookup key
  | .array items, .item number => items[number]?
  | _, _ => none

/-- The subtree at a position; there is none where the tree has no such node. -/
def at? (tree : Tree α) : List Step → Option (Tree α)
  | [] => some tree
  | step :: rest => (tree.member? step).bind fun member => member.at? rest

@[simp] theorem at?_nil (tree : Tree α) : tree.at? [] = some tree := rfl

theorem at?_append (tree : Tree α) (position rest : List Step) :
    tree.at? (position ++ rest) = (tree.at? position).bind fun subtree => subtree.at? rest := by
  induction position generalizing tree with
  | nil => rfl
  | cons step others ih =>
      simp only [List.cons_append, at?]
      cases tree.member? step with
      | none => rfl
      | some member => exact ih member

theorem at?_singleton (tree : Tree α) (step : Step) : tree.at? [step] = tree.member? step := by
  simp only [at?]
  cases tree.member? step <;> rfl

theorem at?_cons {tree member : Tree α} {step : Step} (found : tree.member? step = some member)
    (rest : List Step) : tree.at? (step :: rest) = member.at? rest := by
  simp only [at?, found, Option.bind_some]

end Tree

namespace Json

open DocStore.Tree (Step)

/-! ## Embeddings -/

/-- A map from the nodes of a query to nodes of a document that keeps the structure of the query.
Only the images of nodes of the query matter. -/
structure Embedding (document query : Json) where
  /-- The position in the document of the image of the node at a position in the query. -/
  image : List Step → List Step
  root : image [] = []
  object : ∀ {position fields}, query.at? position = some (.object fields) →
    (∃ fields', document.at? (image position) = some (.object fields'))
      ∧ ∀ key value, fields.lookup key = some value →
          image (position ++ [.key key]) = image position ++ [.key key]
  array : ∀ {position items}, query.at? position = some (.array items) →
    (∃ items', document.at? (image position) = some (.array items'))
      ∧ ∀ number < items.length, ∃ number',
          image (position ++ [.item number]) = image position ++ [.item number']
  scalar : ∀ {position value}, query.at? position = some (.leaf value) →
    ∃ value', document.at? (image position) = some (.leaf value') ∧ Scalar.Equal value' value

namespace Embedding

variable {document query : Json}

/-- The image of a node is a node. -/
theorem image_isSome (embedding : Embedding document query) {position : List Step} {part : Json}
    (node : query.at? position = some part) : ∃ part', document.at? (embedding.image position)
      = some part' := by
  cases part with
  | leaf value =>
      obtain ⟨value', found, _⟩ := embedding.scalar node
      exact ⟨_, found⟩
  | array items => exact (embedding.array node).1.elim fun _ found => ⟨_, found⟩
  | object fields => exact (embedding.object node).1.elim fun _ found => ⟨_, found⟩

/-- The image of a member of a node is a member of the image of the node. -/
theorem image_member (embedding : Embedding document query) {position : List Step} {step : Step}
    {part member : Json} (node : query.at? position = some part)
    (found : part.member? step = some member) :
    ∃ step', embedding.image (position ++ [step]) = embedding.image position ++ [step'] := by
  match part, step with
  | .object fields, .key key => exact ⟨_, (embedding.object node).2 key member found⟩
  | .array items, .item number =>
      have inside : number < items.length := (List.getElem?_eq_some_iff.mp found).1
      obtain ⟨number', same⟩ := (embedding.array node).2 number inside
      exact ⟨_, same⟩
  | .leaf _, _ | .object _, .item _ | .array _, .key _ => simp [Tree.member?] at found

/-- Below a member of the root every image lies below the image of the member. -/
theorem image_cons (embedding : Embedding document query) {step step' : Step} {member : Json}
    (found : query.member? step = some member) (start : embedding.image [step] = [step'])
    (position : List Step) :
    ∀ {part : Json}, member.at? position = some part →
      embedding.image (step :: position)
        = step' :: (embedding.image (step :: position)).tail := by
  induction position using List.reverseRecOn with
  | nil => intro part _; rw [start]; rfl
  | append_singleton position last ih =>
      intro part node
      rw [Tree.at?_append, Option.bind_eq_some_iff] at node
      obtain ⟨above, aboveNode, below⟩ := node
      rw [Tree.at?_singleton] at below
      have above' : query.at? (step :: position) = some above := by
        rw [Tree.at?_cons found, aboveNode]
      obtain ⟨last', same⟩ := embedding.image_member above' below
      rw [← List.cons_append, same, ih aboveNode]
      rfl

/-- An embedding restricted to a member of the root. -/
def restrict (embedding : Embedding document query) {step step' : Step} {member member' : Json}
    (found : query.member? step = some member) (found' : document.member? step' = some member')
    (start : embedding.image [step] = [step']) : Embedding member' member where
  image position := (embedding.image (step :: position)).tail
  root := by rw [start]; rfl
  object {position fields} node := by
    have node' : query.at? (step :: position) = some (.object fields) := by
      rw [Tree.at?_cons found, node]
    have below := embedding.image_cons found start position node
    obtain ⟨⟨fields', image⟩, members⟩ := embedding.object node'
    rw [below, Tree.at?_cons found'] at image
    refine ⟨⟨fields', image⟩, fun key value present => ?_⟩
    rw [← List.cons_append, members key value present, below]
    rfl
  array {position items} node := by
    have node' : query.at? (step :: position) = some (.array items) := by
      rw [Tree.at?_cons found, node]
    have below := embedding.image_cons found start position node
    obtain ⟨⟨items', image⟩, members⟩ := embedding.array node'
    rw [below, Tree.at?_cons found'] at image
    refine ⟨⟨items', image⟩, fun number inside => ?_⟩
    obtain ⟨number', same⟩ := members number inside
    refine ⟨number', ?_⟩
    rw [← List.cons_append, same, below]
    rfl
  scalar {position value} node := by
    have node' : query.at? (step :: position) = some (.leaf value) := by
      rw [Tree.at?_cons found, node]
    have below := embedding.image_cons found start position node
    obtain ⟨value', image, equal⟩ := embedding.scalar node'
    rw [below, Tree.at?_cons found'] at image
    exact ⟨value', image, equal⟩

/-- The image under a map that sends each member by an embedding of its own. -/
def gathered (target : Step → Step) (images : Step → List Step → List Step) :
    List Step → List Step
  | [] => []
  | step :: rest => target step :: images step rest

/-- An embedding put together from embeddings of the members of the root. -/
theorem exists_of_members (target : Step → Step)
    (members : ∀ step member, query.member? step = some member →
      ∃ member', document.member? (target step) = some member'
        ∧ Nonempty (Embedding member' member))
    (object : ∀ {fields}, query = .object fields →
      (∃ fields', document = .object fields') ∧ ∀ key, target (.key key) = .key key)
    (array : ∀ {items}, query = .array items →
      (∃ items', document = .array items')
        ∧ ∀ number, ∃ number', target (.item number) = .item number')
    (scalar : ∀ {value}, query = .leaf value →
      ∃ value', document = .leaf value' ∧ Scalar.Equal value' value) :
    Nonempty (Embedding document query) := by
  classical
  have chosen : ∀ step, ∃ image : List Step → List Step, ∀ member,
      query.member? step = some member →
        ∃ member', document.member? (target step) = some member'
          ∧ ∃ embedding : Embedding member' member, embedding.image = image := by
    intro step
    cases found : query.member? step with
    | none => exact ⟨id, fun member absent => by simp at absent⟩
    | some member =>
        obtain ⟨member', found', ⟨embedding⟩⟩ := members step member found
        refine ⟨embedding.image, fun other same => ?_⟩
        obtain rfl := Option.some.inj same
        exact ⟨member', found', embedding, rfl⟩
  choose images spec using chosen
  -- Every node of the query but the root lies in a member, whose embedding says where it goes.
  have below : ∀ step rest part, query.at? (step :: rest) = some part →
      ∃ member member', query.member? step = some member
        ∧ document.member? (target step) = some member' ∧ member.at? rest = some part
        ∧ ∃ embedding : Embedding member' member, embedding.image = images step := by
    intro step rest part node
    obtain ⟨member, found, inside⟩ := Option.bind_eq_some_iff.mp node
    obtain ⟨member', found', embedding, same⟩ := spec step member found
    exact ⟨member, member', found, found', inside, embedding, same⟩
  refine ⟨⟨gathered target images, rfl, ?_, ?_, ?_⟩⟩
  · intro position fields node
    match position with
    | [] =>
        obtain ⟨⟨fields', rfl⟩, keys⟩ := object (Option.some.inj node)
        refine ⟨⟨fields', rfl⟩, fun key value present => ?_⟩
        obtain rfl := Option.some.inj node
        obtain ⟨_, _, embedding, same⟩ := spec (.key key) value present
        simp only [List.nil_append, gathered, keys, ← same, embedding.root]
    | step :: rest =>
        obtain ⟨member, member', _, found', inside, embedding, same⟩ := below step rest _ node
        obtain ⟨⟨fields', image⟩, keys⟩ := embedding.object inside
        refine ⟨⟨fields', ?_⟩, fun key value present => ?_⟩
        · rw [gathered, Tree.at?_cons found', ← same, image]
        · simp only [List.cons_append, gathered, ← same, keys key value present]
  · intro position items node
    match position with
    | [] =>
        obtain ⟨⟨items', rfl⟩, numbers⟩ := array (Option.some.inj node)
        refine ⟨⟨items', rfl⟩, fun number inside => ?_⟩
        obtain rfl := Option.some.inj node
        obtain ⟨number', moved⟩ := numbers number
        obtain ⟨_, _, embedding, same⟩ :=
          spec (.item number) items[number] (List.getElem?_eq_getElem inside)
        exact ⟨number', by simp only [List.nil_append, gathered, moved, ← same, embedding.root]⟩
    | step :: rest =>
        obtain ⟨member, member', _, found', inside, embedding, same⟩ := below step rest _ node
        obtain ⟨⟨items', image⟩, numbers⟩ := embedding.array inside
        refine ⟨⟨items', ?_⟩, fun number within => ?_⟩
        · rw [gathered, Tree.at?_cons found', ← same, image]
        · obtain ⟨number', moved⟩ := numbers number within
          exact ⟨number', by simp only [List.cons_append, gathered, ← same, moved]⟩
  · intro position value node
    match position with
    | [] =>
        obtain ⟨value', rfl, equal⟩ := scalar (Option.some.inj node)
        exact ⟨value', rfl, equal⟩
    | step :: rest =>
        obtain ⟨member, member', _, found', inside, embedding, same⟩ := below step rest _ node
        obtain ⟨value', image, equal⟩ := embedding.scalar inside
        exact ⟨value', by rw [gathered, Tree.at?_cons found', ← same, image], equal⟩

/-- The image of a member of the root, with the embedding of the member. -/
theorem exists_restriction (embedding : Embedding document query) {step : Step} {member : Json}
    (found : query.member? step = some member) {step' : Step}
    (start : embedding.image [step] = [step']) :
    ∃ member', document.member? step' = some member' ∧ Nonempty (Embedding member' member) := by
  have node : query.at? [step] = some member := by rw [Tree.at?_singleton, found]
  obtain ⟨member', found'⟩ := embedding.image_isSome node
  rw [start, Tree.at?_singleton] at found'
  exact ⟨member', found', ⟨embedding.restrict found found' start⟩⟩

end Embedding

/-! ## Containment -/

/-- Where a query has an embedding it is contained. -/
theorem contains_of_embedding (query : Json) : query.WellFormed → ∀ {document : Json},
    document.WellFormed → Embedding document query → contains document query = true := by
  induction query using Tree.induct with
  | leaf value =>
      intro finite document wellFormed embedding
      obtain ⟨value', image, equal⟩ := embedding.scalar (Tree.at?_nil _)
      rw [embedding.root] at image
      obtain rfl := Option.some.inj image
      exact (Scalar.same_iff_equal (wellFormed_leaf.mp wellFormed) (wellFormed_leaf.mp finite)).mpr
        equal
  | array items ih =>
      intro wellFormed document wellFormed' embedding
      rw [wellFormed_array] at wellFormed
      obtain ⟨⟨items', image⟩, moves⟩ := embedding.array (Tree.at?_nil _)
      rw [embedding.root] at image
      obtain rfl := Option.some.inj image
      rw [wellFormed_array] at wellFormed'
      rw [contains, Tree.contains_array, List.all_eq_true]
      intro item member
      obtain ⟨number, inside, rfl⟩ := List.getElem_of_mem member
      obtain ⟨number', start⟩ := moves number inside
      rw [List.nil_append, embedding.root, List.nil_append] at start
      have present : (Tree.array items).member? (.item number) = some items[number] :=
        List.getElem?_eq_getElem inside
      obtain ⟨item', found, ⟨restricted⟩⟩ := embedding.exists_restriction present start
      have found : items'[number']? = some item' := found
      have member' := List.mem_of_getElem? found
      exact List.any_eq_true.mpr ⟨item', member',
        ih _ member (wellFormed _ member) (wellFormed' item' member') restricted⟩
  | object fields ih =>
      intro wellFormed document wellFormed' embedding
      rw [wellFormed_object] at wellFormed
      obtain ⟨⟨fields', image⟩, moves⟩ := embedding.object (Tree.at?_nil _)
      rw [embedding.root] at image
      obtain rfl := Option.some.inj image
      rw [wellFormed_object] at wellFormed'
      rw [contains, Tree.contains_object, List.all_eq_true]
      rintro ⟨key, wanted⟩ member
      have present : (Tree.object fields).member? (.key key) = some wanted :=
        (Lookup.lookup_eq_some_iff wellFormed.1).mpr member
      have start := moves key wanted present
      rw [List.nil_append, embedding.root, List.nil_append] at start
      obtain ⟨value, found, ⟨restricted⟩⟩ := embedding.exists_restriction present start
      have found : fields'.lookup key = some value := found
      simp only [found]
      exact ih _ member (wellFormed.2 _ member) (wellFormed'.2 _ (Lookup.mem_of_lookup found))
        restricted

/-- The step to another item, where items are moved. -/
def Step.moveItems (moved : Nat → Nat) : Step → Step
  | .key key => .key key
  | .item number => .item (moved number)

/-- Where each item is contained in one of a document, each number of an item has a number of such
a one. -/
theorem exists_moved {items items' : List Json}
    (contained : ∀ item ∈ items, (items'.any fun item' => contains item' item) = true) :
    ∃ moved : Nat → Nat, ∀ (number : Nat) (item : Json), items[number]? = some item →
      ∃ item', items'[moved number]? = some item' ∧ contains item' item = true := by
  have chosen (number : Nat) : ∃ number' : Nat, ∀ item, items[number]? = some item →
      ∃ item', items'[number']? = some item' ∧ contains item' item = true := by
    cases found : items[number]? with
    | none => exact ⟨0, fun item absent => by simp at absent⟩
    | some item =>
        obtain ⟨item', member', inner⟩ :=
          List.any_eq_true.mp (contained item (List.mem_of_getElem? found))
        obtain ⟨number', inside, same⟩ := List.getElem_of_mem member'
        refine ⟨number', fun other same' => ⟨item', ?_, ?_⟩⟩
        · rw [List.getElem?_eq_getElem inside, same]
        · rw [← Option.some.inj same']
          exact inner
  choose moved spec using chosen
  exact ⟨moved, spec⟩

/-- A query that is contained has an embedding.  Every item of an array goes to one that contains
it. -/
theorem embedding_of_contains (query : Json) : query.WellFormed → ∀ {document : Json},
    document.WellFormed → contains document query = true →
      Nonempty (Embedding document query) := by
  induction query using Tree.induct with
  | leaf value =>
      intro finite document wellFormed contained
      cases document with
      | array _ | object _ => simp [contains, Tree.containsBy] at contained
      | leaf value' =>
          have equal := (Scalar.same_iff_equal (wellFormed_leaf.mp wellFormed)
            (wellFormed_leaf.mp finite)).mp contained
          refine Embedding.exists_of_members id ?_ ?_ ?_ ?_
          · intro step member found
            simp [Tree.member?] at found
          · intro fields same
            simp at same
          · intro items same
            simp at same
          · intro wanted same
            exact ⟨value', rfl, Tree.leaf.inj same ▸ equal⟩
  | array items ih =>
      intro wellFormed document wellFormed' contained
      rw [wellFormed_array] at wellFormed
      cases document with
      | leaf _ | object _ => simp [contains, Tree.containsBy] at contained
      | array items' =>
          rw [wellFormed_array] at wellFormed'
          rw [contains, Tree.contains_array, List.all_eq_true] at contained
          obtain ⟨moved, spec⟩ := exists_moved contained
          refine Embedding.exists_of_members (Step.moveItems moved) ?_ ?_ ?_ ?_
          · intro step item found
            cases step with
            | key _ => simp [Tree.member?] at found
            | item number =>
                obtain ⟨item', found', inner⟩ := spec number item found
                have member := List.mem_of_getElem? found
                exact ⟨item', found', ih item member (wellFormed item member)
                  (wellFormed' item' (List.mem_of_getElem? found')) inner⟩
          · intro fields same
            simp at same
          · intro _ _
            exact ⟨⟨items', rfl⟩, fun number => ⟨moved number, rfl⟩⟩
          · intro value same
            simp at same
  | object fields ih =>
      intro wellFormed document wellFormed' contained
      rw [wellFormed_object] at wellFormed
      cases document with
      | leaf _ | array _ => simp [contains, Tree.containsBy] at contained
      | object fields' =>
          rw [wellFormed_object] at wellFormed'
          rw [contains, Tree.contains_object, List.all_eq_true] at contained
          refine Embedding.exists_of_members id ?_ ?_ ?_ ?_
          · intro step wanted found
            cases step with
            | item _ => simp [Tree.member?] at found
            | key key =>
                have member := Lookup.mem_of_lookup found
                have inner := contained (key, wanted) member
                cases found' : fields'.lookup key with
                | none => simp [found'] at inner
                | some value =>
                    simp only [found'] at inner
                    exact ⟨value, found', ih _ member (wellFormed.2 _ member)
                      (wellFormed'.2 _ (Lookup.mem_of_lookup found')) inner⟩
          · intro _ _
            exact ⟨⟨fields', rfl⟩, fun key => rfl⟩
          · intro items same
            simp at same
          · intro value same
            simp at same

/-- **The search for a query in a document always ends, and it succeeds exactly when the query can
be embedded into the document.** -/
theorem contains_iff_nonempty_embedding (document query : Json)
    (wellFormed : document.WellFormed) (wellFormed' : query.WellFormed) :
    Caller.contains? (Caller.ofJson document) (Caller.ofJson query)
        = some (contains document query)
      ∧ (contains document query = true ↔ Nonempty (Embedding document query)) :=
  ⟨Caller.contains?_ofJson document query,
    embedding_of_contains query wellFormed' wellFormed,
    fun ⟨embedding⟩ => contains_of_embedding query wellFormed' wellFormed embedding⟩

/-- Two wanted objects share one item, and a negative zero is found as zero. -/
theorem shared_item_embedding :
    let item : Json := .object [("size", number (.finite true .zero)), ("__proto__", null)]
    let document : Json := .object [("", string "x"), ("items", .array [string "y", item])]
    let query : Json := .object [("items",
      .array [.object [("__proto__", null)], .object [("size", number .zero)]])]
    document.WellFormed ∧ query.WellFormed ∧ contains document query = true
      ∧ Nonempty (Embedding document query) := by
  intro item document query
  have wellFormed : document.WellFormed := by
    simp [document, item, Scalar.IsFinite, Number.isFinite]
  have wellFormed' : query.WellFormed := by
    simp [query, Scalar.IsFinite, Number.isFinite, Number.zero]
  have found : contains document query = true := by decide
  exact ⟨wellFormed, wellFormed', found,
    (contains_iff_nonempty_embedding document query wellFormed wellFormed').2.mp found⟩

end Json

end DocStore
