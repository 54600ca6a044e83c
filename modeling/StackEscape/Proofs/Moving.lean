import Mathlib
import StackEscape.Proofs.BodyHiding

/-!
# Moving local functions

A local function can be called in the whole block that declares it, so it should not matter where in
the block the declaration stands. It does not, if the types of all signatures are stack-only
wherever they are looked at, or nowhere.

## Main definitions

* `StackEscape.Hiding.behind` — hides what the declaration of a local function records and files.
* `StackEscape.Walk.contractAt` — the contract of a local function where its declaration stands.
* `StackEscape.Walk.beyond` — the walk over a block and over what follows it.

## Main results

* `StackEscape.Walk.beside_of_hidden` — a local function leaves nothing behind that is not hidden.
* `StackEscape.Walk.beside_moved` — its declaration can be moved.
* `StackEscape.Walk.contract_where_declared` — when a local function is called and walked with the
  contract that its declaration says, wherever it is mentioned first.
* `StackEscape.Echoes.escapes_when_called_first` — a value that leaves its method since the local
  function it goes through is called before its declaration.
-/

set_option autoImplicit false

namespace StackEscape

/-! ## The local functions of a block -/

/-- Among functions with names of their own, a name means the same in every order. -/
theorem FnDecl.find?_perm {xs ys : List FnDecl} (h : xs.Perm ys) (name : String)
    (hnames : (xs.map FnDecl.name).Nodup) :
    (xs.find? fun f => decide (f.name = name)) = ys.find? fun f => decide (f.name = name) := by
  induction h with
  | nil => rfl
  | cons x _ ih =>
    rw [List.find?_cons, List.find?_cons, ih (List.nodup_cons.1 hnames).2]
  | swap x y rest =>
    have hne : y.name ≠ x.name := fun he =>
      (List.nodup_cons.1 hnames).1 (he ▸ List.mem_cons_self ..)
    simp only [List.find?_cons]
    by_cases hx : x.name = name
    · have hy : y.name ≠ name := fun hy => hne (hy.trans hx.symm)
      simp [hx, hy]
    · simp [hx]
  | trans h _ ih ih' =>
    rw [ih hnames, ih' ((h.map FnDecl.name).nodup_iff.1 hnames)]

namespace Site

variable {a : Point}

theorem ofStmts_append (xs ys : List Stmt) :
    ofStmts a (xs ++ ys) = ofStmts a xs ++ ofStmts a ys := by
  induction xs with
  | nil => rw [List.nil_append, ofStmts, List.nil_append]
  | cons x rest ih => rw [List.cons_append, ofStmts, ofStmts, ih, List.append_assoc]

/-- The local functions that some sites declare. -/
def functions (xs : List Site) : List FnDecl := xs.filterMap localFunction?

/-- The local functions of a block come in order among all of its local functions. -/
theorem directFunctions_sublist (a : Point) (stmts : List Stmt) :
    (directFunctions stmts).Sublist (functions (ofStmts a stmts)) := by
  induction stmts with
  | nil => exact List.nil_sublist _
  | cons s rest ih =>
    have hrest : (directFunctions rest).Sublist (functions (ofStmts a (s :: rest))) := by
      rw [ofStmts, functions, List.filterMap_append]
      exact ih.trans (List.sublist_append_right _ _)
    obtain ⟨id, kind, span⟩ := s
    cases kind with
    | localFunction d =>
      rw [ofStmts, ofStmt, functions, List.cons_append, List.filterMap_cons, List.filterMap_append]
      exact (ih.trans (List.sublist_append_right _ _)).cons_cons d
    | _ => exact hrest

end Site

/-! ## Hiding a local function -/

namespace Hiding

variable {env : Surroundings} {caps : Capabilities} {hidden seen : List Site}

/-- What the walk over some sites records and files is hidden from the walk over others. -/
def behind (env : Surroundings) (caps : Capabilities) (hidden seen : List Site) : Hiding where
  env := env
  caps := caps
  functions := Site.functions seen
  owners := (Site.functions hidden).map env.localKey
  ids := Site.visitedIds hidden

/-- Parts of a body that do not overlap come to different local functions. -/
theorem sound_behind (hk : env.program.DistinctKeys) (hm : env.member ∈ env.program.members)
    (hcaps : caps.OwnedBy (Declarations.IsOwner env.program))
    (hsteady : ∀ d ∈ env.member.localFunctions, env.member.Steady caps env.program d)
    (hsites : (hidden ++ seen).Subperm env.member.sites) :
    (behind env caps hidden seen).Sound := by
  have hsub : hidden ++ seen ⊆ env.member.sites := hsites.subset
  have hmem {xs : List Site} (h : xs ⊆ env.member.sites) :
      Site.functions xs ⊆ env.member.localFunctions := List.filterMap_subset _ h
  obtain ⟨xs, hperm, hxs⟩ := hsites
  have hnd : ((Site.functions (hidden ++ seen)).map env.localKey).Nodup := by
    have hall : env.member.localKeys.Nodup := Program.DistinctKeys.nodup_localKeys hk hm
    have hpart : ((Site.functions xs).map env.localKey).Nodup :=
      hall.sublist ((hxs.filterMap Site.localFunction?).map env.localKey)
    exact ((hperm.filterMap Site.localFunction?).map env.localKey).nodup_iff.1 hpart
  rw [Site.functions, List.filterMap_append, List.map_append] at hnd
  refine ⟨hk, hm, hcaps, hsteady, ?_, ?_, ?_⟩
  · exact hmem (List.append_subset.1 hsub).2
  · exact List.map_subset _ (hmem (List.append_subset.1 hsub).1)
  · exact fun k hseen hhidden => (List.nodup_append.1 hnd).2.2 k hhidden k hseen rfl

theorem reaches_behind {xs : List Site} (h : xs ⊆ seen) :
    (behind env caps hidden seen).Reaches xs :=
  fun x hx _ hd => List.mem_filterMap.2 ⟨x, h hx, hd⟩

end Hiding

namespace Walk

variable {H : Hiding} {a : Point} {s t : WalkState}

/-- A local function that is hidden leaves nothing else behind: its declaration changes no names,
and what is recorded and filed in it is hidden. -/
theorem beside_of_hidden (hH : H.Sound) {id : NodeId} {d : FnDecl} {span : Span}
    (hsites : Site.ofStmt a ⟨id, .localFunction d, span⟩ ⊆ H.env.member.sites)
    (hids : Site.visitedIds (Site.ofStmt a ⟨id, .localFunction d, span⟩) ⊆ H.ids)
    (howners : (Site.functions (Site.ofStmt a ⟨id, .localFunction d, span⟩)).map H.env.localKey ⊆
      H.owners) (hs : s.Stands H) :
    ((checkStmt H.env ⟨id, .localFunction d, span⟩).after s).Beside H s := by
  have hcovers : Covers ⟨H.env, .empty, .empty, False⟩ a True
      (Site.ofStmt a ⟨id, .localFunction d, span⟩) (fun _ => True)
      (checkStmt H.env ⟨id, .localFunction d, span⟩) := Covers.checkStmt _
  have hprogress := (hcovers.proper hsites).progress s hs.placed
  refine ⟨hs.later hH hprogress, hs, ?_, hprogress.generics, ?_, ?_⟩
  · have hextends : s.Extends [] ((checkStmt H.env ⟨id, .localFunction d, span⟩).after s) :=
      (Declares.checkStmt ⟨id, .localFunction d, span⟩ (List.Subset.refl _)).after s
    obtain ⟨infos, hinfos, hctx⟩ := hextends.context
    obtain rfl : infos = [] :=
      List.eq_nil_iff_forall_not_mem.2 fun info hinfo => List.not_mem_nil (hinfos info hinfo)
    rw [hctx, Context.declareAll_nil]
  · exact fun k hk => hcovers.frame hsites s hs.placed k fun hmem => hk (hids hmem)
  · -- Now nothing is hidden, but the walk comes to the local function.
    have hH₀ : Hiding.Sound
        { H with functions := Site.functions (Site.ofStmt a ⟨id, .localFunction d, span⟩)
                 owners := [], ids := [] } :=
      ⟨hH.distinct, hH.mem, hH.caps, hH.steady, List.filterMap_subset _ hsites,
        List.nil_subset _, fun _ _ => List.not_mem_nil⟩
    have hblind := Beside.checkStmt hH₀ (a := a) ⟨id, .localFunction d, span⟩
      fun y hy e he => List.mem_filterMap.2 ⟨y, hy, he⟩
    refine fun k hk => hblind.frame s s (.refl ⟨hs.placed, hs.settled, ?_⟩) k fun hmem =>
      hk (howners hmem)
    exact fun _ _ => List.not_mem_nil

/-- The walk over the statements of a block from within its scope, and over what follows the
block. -/
def beyond (env : Surroundings) (stmts rest : List Stmt) (s : WalkState) : WalkState :=
  (checkStmts env rest).after ((checkStmts env stmts).after (s.withFunctions stmts)).leave

/-- A statement that leaves nothing behind can be moved within its block. -/
theorem beside_moved (hH : H.Sound) {x : Stmt} {pre mid post rest : List Stmt} {b : Point}
    (hx : ∀ s : WalkState, s.Stands H → ((checkStmt H.env x).after s).Beside H s)
    (hblock : H.Reaches (Site.ofStmts a (pre ++ (mid ++ post))))
    (hrest : H.Reaches (Site.ofStmts b rest))
    (hmem : directFunctions (pre ++ x :: (mid ++ post)) ⊆ H.env.member.localFunctions)
    (hnames : ((directFunctions (pre ++ x :: (mid ++ post))).map FnDecl.name).Nodup)
    (hs : s.Stands H) :
    (beyond H.env (pre ++ x :: (mid ++ post)) rest s).Beside H
      (beyond H.env (pre ++ (mid ++ x :: post)) rest s) := by
  have hperm : (directFunctions (pre ++ x :: (mid ++ post))).Perm
      (directFunctions (pre ++ (mid ++ x :: post))) :=
    (List.perm_middle.symm.append_left pre).filterMap _
  have hstands {stmts : List Stmt} (hd : directFunctions stmts ⊆ H.env.member.localFunctions) :
      (s.withFunctions stmts).Stands H :=
    ⟨hs.placed.declareFunctions fun _ hf => hd hf, hs.settled, hs.visible⟩
  have hstart : (s.withFunctions (pre ++ x :: (mid ++ post))).Beside H
      (s.withFunctions (pre ++ (mid ++ x :: post))) := by
    refine ⟨hstands hmem, hstands fun f hf => hmem (hperm.mem_iff.2 hf), ?_, rfl, fun _ _ => rfl,
      .refl _ _⟩
    refine Context.outlook_declareFunctions rfl fun name => FnDecl.find?_perm ?_ name ?_
    · exact (List.reverse_perm _).trans (hperm.trans (List.reverse_perm _).symm)
    · exact ((List.reverse_perm _).map FnDecl.name).nodup_iff.2 hnames
  rw [Site.ofStmts_append, Site.ofStmts_append] at hblock
  obtain ⟨hpre, hmidpost⟩ := hblock.append
  obtain ⟨hmid, hpost⟩ := hmidpost.append
  -- In both orders the other statements are walked in states beside each other.
  have h₁ := (Beside.checkStmts hH pre hpre).after _ _ hstart
  have h₂ := (Beside.checkStmts hH mid hmid).after _ _ ((hx _ h₁.left).trans h₁)
  have h₃ := (Beside.checkStmts hH post hpost).after _ _ (h₂.trans (hx _ h₂.right).symm)
  have h₄ := (Beside.checkStmts hH rest hrest).after _ _ h₃.leave
  simpa only [beyond, after_checkStmts_append, checkStmts, after_bind] using h₄

section Moved

variable {env : Surroundings} {caps : Capabilities} {b : Point} {id : NodeId} {d : FnDecl}
  {span : Span} {pre mid post rest : List Stmt}

/-- The declaration of a local function can be moved within its block: what is recorded elsewhere
stays the same. -/
theorem pair?_beyond_moved (env : Surroundings) (hk : env.program.DistinctKeys)
    (hm : env.member ∈ env.program.members)
    (hcaps : caps.OwnedBy (Declarations.IsOwner env.program))
    (hsteady : ∀ e ∈ env.member.localFunctions, env.member.Steady caps env.program e)
    (hsites : (Site.ofStmts a (pre ++ ⟨id, .localFunction d, span⟩ :: (mid ++ post)) ++
      Site.ofStmts b rest).Sublist env.member.sites)
    (hs : s.Placed env) (hsettled : s.tables.Settled env.program caps env.member)
    (howned : s.generics.OwnedBy fun k =>
      k ∉ (Site.functions (Site.ofStmt a ⟨id, .localFunction d, span⟩)).map env.localKey)
    {node : NodeId} (hnode : node ∉ Site.visitedIds (Site.ofStmt a ⟨id, .localFunction d, span⟩)) :
    (beyond env (pre ++ ⟨id, .localFunction d, span⟩ :: (mid ++ post)) rest s).facts.pair? node =
      (beyond env (pre ++ (mid ++ ⟨id, .localFunction d, span⟩ :: post)) rest s).facts.pair?
        node := by
  generalize hx : (⟨id, .localFunction d, span⟩ : Stmt) = x at *
  let hidden : List Site := Site.ofStmt a x
  let seen : List Site := Site.ofStmts a (pre ++ (mid ++ post)) ++ Site.ofStmts b rest
  have hperm : (Site.ofStmts a (pre ++ x :: (mid ++ post)) ++ Site.ofStmts b rest).Perm
      (hidden ++ seen) := by
    have hblock : (Site.ofStmts a (pre ++ x :: (mid ++ post))).Perm
        (hidden ++ Site.ofStmts a (pre ++ (mid ++ post))) := by
      rw [Site.ofStmts_append, Site.ofStmts_append, Site.ofStmts, ← List.append_assoc,
        ← List.append_assoc]
      exact List.perm_append_comm.append_right _
    rw [← List.append_assoc]
    exact hblock.append_right _
  have hH : (Hiding.behind env caps hidden seen).Sound :=
    Hiding.sound_behind hk hm hcaps hsteady ⟨_, hperm, hsites⟩
  have hdirect : (directFunctions (pre ++ x :: (mid ++ post))).Sublist env.member.localFunctions :=
    (Site.directFunctions_sublist a _).trans
      (((List.sublist_append_left _ _).trans hsites).filterMap Site.localFunction?)
  have hnames : ((directFunctions (pre ++ x :: (mid ++ post))).map FnDecl.name).Nodup := by
    have hkeys : ((directFunctions (pre ++ x :: (mid ++ post))).map env.localKey).Nodup :=
      (Program.DistinctKeys.nodup_localKeys hk hm).sublist (hdirect.map env.localKey)
    refine List.Nodup.of_map (fun name => env.member.key ++ "." ++ name) ?_
    rwa [List.map_map]
  have hinside : hidden ⊆ env.member.sites := fun y hy =>
    hsites.subset (hperm.mem_iff.2 (List.mem_append_left _ hy))
  have hblock : (Hiding.behind env caps hidden seen).Reaches
      (Site.ofStmts a (pre ++ (mid ++ post))) := Hiding.reaches_behind (List.subset_append_left _ _)
  have hrest : (Hiding.behind env caps hidden seen).Reaches (Site.ofStmts b rest) :=
    Hiding.reaches_behind (List.subset_append_right _ _)
  refine (beside_moved hH (fun t ht => ?_) hblock hrest hdirect.subset hnames
    ⟨hs, hsettled, howned⟩).pairs node hnode
  subst hx
  exact beside_of_hidden hH hinside (List.Subset.refl _) (List.Subset.refl _) ht

end Moved

/-! ## Where local functions are mentioned first -/

section First

variable {env : Surroundings}

/-- The contract of a local function where its declaration stands: the capabilities of its type
parameters have just been filed. -/
def contractAt (env : Surroundings) (d : FnDecl) (t : WalkState) : Contract :=
  ((fileTypeParams env d).after t).localContract env d

/-- What is filed when a local function is mentioned first stays the contract of it. -/
theorem answer_localContract_of_first {d : FnDecl} {s u : WalkState}
    (hfirst : s.tables.contracts.get? (env.localKey d) = none)
    (hsteps : Relation.ReflTransGen env.TableStep ((localContract env d).after s).tables u.tables) :
    (localContract env d).answer u = s.localContract env d := by
  refine localContract_of_filed (T := ((localContract env d).after s).tables) ?_ hsteps
  change (s.tables.contracts.obtain (env.localKey d) (s.localContract env d)).2.get? _ = _
  rw [Contracts.get?_obtain, if_pos rfl, hfirst, Option.getD_none]

end First

/-- **Where local functions are mentioned first.** Wherever the walk over a body mentions a local
function first, that decides the contract of it: it is the one of its declaration exactly if the
types of its signature are stack-only here and there alike. If no two declarations share a key and
the local function is steady, that is so. If all local functions of the body are, then the
declaration of one of them can be moved within its block: nothing that is recorded elsewhere
changes. -/
theorem contract_where_declared {p : Program} (runtime : Bool) {before : List Member}
    (hbefore : before ⊆ p.members) {m : Member} (hm : m ∈ p.members) :
    let env : Surroundings := ⟨p, m, runtime⟩
    let T := (p.checkMembers runtime (p.declaredTables runtime) before).2
    let caps := (p.declaredTables runtime).caps
    (∀ d ∈ m.localFunctions,
      (∀ s t u : WalkState, s.tables.contracts.get? (env.localKey d) = none →
        Relation.ReflTransGen env.TableStep ((localContract env d).after s).tables u.tables →
        ((localContract env d).answer u = contractAt env d t ↔
          ∀ ty ∈ d.signature, s.tables.caps.stackOnly p (s.localScope env d) ty =
            ((fileTypeParams env d).after t).tables.caps.stackOnly p (t.localScope env d) ty)) ∧
      (p.DistinctKeys → m.Steady caps p d → ∀ u t : WalkState, u.Placed env → t.Placed env →
        Relation.ReflTransGen env.TableStep T u.tables →
        Relation.ReflTransGen env.TableStep T t.tables →
        (localContract env d).answer u = contractAt env d t)) ∧
    (p.DistinctKeys → (∀ d ∈ m.localFunctions, m.Steady caps p d) →
      ∀ (a b : Point) (pre mid post rest : List Stmt) (id : NodeId) (d : FnDecl) (span : Span),
      let x : Stmt := ⟨id, .localFunction d, span⟩
      (Site.ofStmts a (pre ++ x :: (mid ++ post)) ++ Site.ofStmts b rest).Sublist m.sites →
      ∀ s : WalkState, s.Placed env → Relation.ReflTransGen env.TableStep T s.tables →
        s.generics.OwnedBy (fun k => k ∉ (Site.functions (Site.ofStmt a x)).map env.localKey) →
        ∀ node ∉ Site.visitedIds (Site.ofStmt a x),
          (beyond env (pre ++ x :: (mid ++ post)) rest s).facts.pair? node =
            (beyond env (pre ++ (mid ++ x :: post)) rest s).facts.pair? node) := by
  intro env T caps
  have hcaps := p.owner_of_declared runtime
  have hsettled (hk : p.DistinctKeys) {v : WalkState}
      (hv : Relation.ReflTransGen env.TableStep T v.tables) : v.tables.Settled p caps m :=
    (Program.settled_checkMembers hk runtime hbefore hm).steps env hk hm hcaps hm hv
  refine ⟨fun d hd => ⟨fun s t u hfirst hsteps => ?_, ?_⟩, ?_⟩
  · rw [answer_localContract_of_first hfirst hsteps]
    exact Contract.build_eq_iff
  · intro hk hsteady u t hu ht hsteps hsteps'
    have hanswer : (localContract env d).answer u = m.declaredContract caps p d :=
      (hsettled hk hsteps).obtainLocal env hk hm hcaps hu.generics hd hsteady
    have hfiled : ((fileTypeParams env d).after t).tables.Settled p caps m :=
      hsettled hk (hsteps'.tail (.typeParams ht.generics hd t.tables))
    have hdeclared : contractAt env d t = m.declaredContract caps p d :=
      Surroundings.Inside.build_declared hk hm hfiled hcaps ht.generics hd hsteady
    exact hanswer.trans hdeclared.symm
  · intro hk hsteady a b pre mid post rest id d span x hsites s hs hsteps howned node hnode
    exact pair?_beyond_moved env hk hm hcaps hsteady hsites hs (hsettled hk hsteps) howned
      hnode

end Walk

/-! ## A local function that is called first -/

namespace Echoes

open Slots

/-- A type parameter that may or may not be stack-only. -/
def typeParam (constraints : List Constraint) : TypeParam := ⟨"T", constraints, .zero⟩

/-- Returns what it is given. -/
def same (constraints : List Constraint) : FnDecl :=
  { fn 10 "Same" [⟨"v", .param "T", .none, false, [], .zero⟩] (.byValue (.param "T"))
      [⟨11, .ret (some ⟨12, .var "v", .param "T", .zero⟩), .zero⟩] with
    typeParams := [typeParam constraints] }

/-- The declaration of the local function. -/
def declaration (constraints : List Constraint) : Stmt :=
  ⟨9, .localFunction (same constraints), .zero⟩

/-- Returns a slot that went through the local function. -/
def call : Stmt :=
  ⟨5, .ret (some ⟨6, .call none ⟨.named "Echoes" [], "Same"⟩ [] [⟨.none, slotVar 7 "slot"⟩], slotTy,
    .zero⟩), .zero⟩

/-- A function that is given a slot which may not leave it. -/
def run (body : List Stmt) : FnDecl :=
  fn 3 "Run" [slotParam "slot" .none true] (.byValue slotTy) body

/-- The class of the function. -/
def decl (body : List Stmt) : TypeDecl :=
  ⟨2, "Echoes", .classType, false, false, [], [], [], [], [run body], .zero⟩

/-- A program with a type that holds a reference, and the class. -/
def program (body : List Stmt) : Program :=
  ⟨[⟨1, "Slot", .refStruct, false, false, [], [], [], [], [], .zero⟩, decl body]⟩

/-- The surroundings of the body. -/
def env (body : List Stmt) : Surroundings := ⟨program body, ⟨decl body, run body⟩, true⟩

/-- The body starts once the parameters are bound. -/
def start (body : List Stmt) : WalkState :=
  let p := program body
  let T := p.declaredTables true
  (p.bindMember true T (env body).member).after (p.entry T (env body).member)

/-- The type parameter of a local function may be stack-only. Called before its declaration, the
local function has a contract that says otherwise, and what may not leave the method is returned
from it. Called behind its declaration, it is noticed. -/
theorem escapes_when_called_first :
    let marked : List Constraint := [⟨.allowsRefStruct, .zero⟩]
    let first := [call, declaration marked]
    let behind := [declaration marked, call]
    (program first).DistinctKeys ∧
      ((program first).analyze {}).tables.contracts.get? ((env first).localKey (same marked)) ≠
        some (Walk.contractAt (env first) (same marked) (start first)) ∧
      ((program first).analyze {}).isOk = true ∧
      ((program first).analyze {}).facts.pair? 6 = some ⟨.unlimited, .currentMethod, false⟩ ∧
      ((program behind).analyze {}).escapeErrors = [⟨.valueEscape "slot", .zero⟩] ∧
      ((program behind).analyze {}).facts.pair? 6 = some .confined := by
  refine ⟨?_, ?_, ?_, ?_, ?_, ?_⟩
  · decide +kernel
  · decide +kernel
  · cbv
  · decide +kernel
  · cbv
  · decide +kernel

/-- If the type parameter may not be stack-only, the local function may be called before its
declaration. -/
theorem contract_where_declared_ordinary :
    let body := [declaration [], call]
    let x : Stmt := declaration []
    let s := start body
    (program body).DistinctKeys ∧
      (env body).member.Steady ((program body).declaredTables true).caps (program body) (same []) ∧
      (Walk.localContract (env body) (same [])).answer s =
        Walk.contractAt (env body) (same []) s ∧
      6 ∉ Site.visitedIds (Site.ofStmt (.ofMember (env body).member body) x) ∧
      (Walk.beyond (env body) [x, call] [] s).facts.pair? 6 =
        (Walk.beyond (env body) [call, x] [] s).facts.pair? 6 := by
  intro body x s
  let p := program body
  let m : Member := ⟨decl body, run body⟩
  let T := (p.checkMembers true (p.declaredTables true) []).2
  have hk : p.DistinctKeys := by decide +kernel
  have hm : m ∈ p.members := List.mem_singleton.2 rfl
  have hd : same [] ∈ m.localFunctions := Program.direct_of_body rfl _ (List.mem_cons_self ..)
  have hsteady : ∀ d ∈ m.localFunctions, m.Steady (p.declaredTables true).caps p d := by
    intro d hd
    obtain rfl : d = same [] := List.mem_singleton.1 hd
    decide +kernel
  have hprogress := Program.progress_bindMember p true T m
  have hs : s.Placed ⟨p, m, true⟩ := hprogress.placed (Program.placed_entry p true T m)
  have hsteps : Relation.ReflTransGen (Surroundings.TableStep ⟨p, m, true⟩) T s.tables :=
    (Relation.ReflTransGen.single (.member hm T)).trans hprogress.tables
  have howned : s.generics.OwnedBy fun k =>
      k ∉ (Site.functions (Site.ofStmt (.ofMember m body) x)).map m.localKey := by
    have hgenerics : s.generics = m.innerScope := hprogress.generics
    rw [hgenerics]
    exact Member.ownedBy_innerScope (by decide +kernel) (by decide +kernel)
  have hsites : (Site.ofStmts (.ofMember m body) ([] ++ x :: ([call] ++ [])) ++
      Site.ofStmts (.ofMember m body) []).Sublist m.sites := by
    rw [Site.ofStmts, List.append_nil]
    exact List.Sublist.refl _
  have hnode : 6 ∉ Site.visitedIds (Site.ofStmt (.ofMember m body) x) := by decide +kernel
  obtain ⟨hcontract, hmove⟩ := Walk.contract_where_declared true (List.nil_subset _) hm
  refine ⟨hk, hsteady _ hd, ?_, hnode, ?_⟩
  · exact (hcontract _ hd).2 hk (hsteady _ hd) s s hs hs hsteps hsteps
  · exact hmove hk hsteady _ _ [] [call] [] [] _ _ _ hsites s hs hsteps howned _ hnode

end Echoes

end StackEscape
