import Vici2.Envelope
import Vici2.Runs

/-! The ESL passwords of FreeSWITCH nodes, encrypted in their column. Creation, update and
reading each name the place of the value on their own. -/

namespace Vici2.Affinity

open Audit (utf8)
open Envelope

structure CreateFsNodeInput where
  tenantId : Int
  name : String
  host : String
  eslHost : String
  eslPort : Option Int
  eslPassword : String
  weight : Option Int
  metadata : Option String
  deriving DecidableEq, Repr

structure UpdateFsNodeInput where
  name : Option String := none
  host : Option String := none
  eslHost : Option String := none
  eslPort : Option Int := none
  eslPassword : Option String := none
  weight : Option Int := none
  metadata : Option String := none
  deriving DecidableEq, Repr

structure FsNode where
  id : Int
  tenantId : Int
  name : String
  host : String
  eslHost : String
  eslPort : Int
  eslPassword : String
  weight : Int
  metadata : String
  deriving DecidableEq, Repr

structure PoolChanged where
  type : String
  nodeId : Int
  deriving DecidableEq, Repr

/-- The table with its counter for ids, and what was published. -/
structure NodeStore where
  nodes : List FsNode
  autoIncrement : Int
  published : List PoolChanged
  deriving DecidableEq, Repr

def NodeStore.empty : NodeStore := ⟨[], 1, []⟩

/-- `Buffer.toString("utf-8")`, which reads back the bytes of a text. -/
structure TextDecoder where
  decode : Bytes → String
  decode_utf8 : ∀ s, decode (utf8 s) = s

section Service

variable (c : Aead) (H : Digest) (env : Env)

/-- `dbError` is the answer of the database where it refuses the row. -/
def createNode (s : NodeStore) (input : CreateFsNodeInput) (draws : Draws)
    (dbError : Option String) : Except String FsNode × NodeStore :=
  match encrypt c H env draws ⟨"fs_nodes", "esl_password", 0, input.tenantId⟩
      (.text input.eslPassword) with
  | .error e => (.error e, s)
  | .ok result =>
    let encryptedPwd := Base64.encode result.ciphertextBlob
    match dbError with
    | some e => (.error e, s)
    | none =>
      let node : FsNode :=
        { id := s.autoIncrement
          tenantId := input.tenantId
          name := input.name
          host := input.host
          eslHost := input.eslHost
          eslPort := input.eslPort.getD 8021
          eslPassword := encryptedPwd
          weight := input.weight.getD 100
          metadata := input.metadata.getD "\x7b\x7d" }
      (.ok node,
        { nodes := s.nodes ++ [node]
          autoIncrement := s.autoIncrement + 1
          published := s.published ++ [⟨"node_created", node.id⟩] })

def NodeStore.find (s : NodeStore) (nodeId : Int) : Option FsNode :=
  s.nodes.find? fun n => n.id = nodeId

/-- The password as it is stored, where one is given. -/
def storedPassword (nodeId : Int) (input : UpdateFsNodeInput) (tenantId : Int) (draws : Draws) :
    Except String (Option String) :=
  match input.eslPassword with
  | none => .ok none
  | some password =>
    (encrypt c H env draws ⟨"fs_nodes", "esl_password", nodeId, tenantId⟩ (.text password)).map
      fun result => some (Base64.encode result.ciphertextBlob)

def FsNode.updated (n : FsNode) (input : UpdateFsNodeInput) (eslPassword : Option String) :
    FsNode :=
  { n with
    name := input.name.getD n.name
    host := input.host.getD n.host
    eslHost := input.eslHost.getD n.eslHost
    eslPort := input.eslPort.getD n.eslPort
    eslPassword := eslPassword.getD n.eslPassword
    weight := input.weight.getD n.weight
    metadata := input.metadata.getD n.metadata }

def updateNode (s : NodeStore) (nodeId : Int) (input : UpdateFsNodeInput) (tenantId : Int)
    (draws : Draws) (dbError : Option String) : Except String (Option FsNode) × NodeStore :=
  match s.find nodeId with
  | none => (.ok none, s)
  | some existing =>
    match storedPassword c H env nodeId input tenantId draws with
    | .error e => (.error e, s)
    | .ok eslPassword =>
      match dbError with
      | some e => (.error e, s)
      | none =>
        (.ok (some (existing.updated input eslPassword)),
          { s with
            nodes := s.nodes.map fun n => if n.id = nodeId then n.updated input eslPassword else n
            published := s.published ++ [⟨"node_updated", nodeId⟩] })

def getEslPassword (text : TextDecoder) (s : NodeStore) (nodeId tenantId : Int) :
    Except String String :=
  match s.find nodeId with
  | none => .error ("FS node " ++ toString nodeId ++ " not found")
  | some node =>
    (decrypt c H env ⟨"fs_nodes", "esl_password", nodeId, tenantId⟩
      (Base64.decode node.eslPassword)).map text.decode

inductive NodeOp
  | createNode (input : CreateFsNodeInput) (draws : Draws) (dbError : Option String)
  | updateNode (nodeId : Int) (input : UpdateFsNodeInput) (tenantId : Int) (draws : Draws)
      (dbError : Option String)

inductive Writer
  | create
  | update (tenantId : Int)
  deriving DecidableEq, Repr

/-- A password that was given for a node, by whom, and the random bytes drawn for it. -/
structure Given where
  password : String
  writer : Writer
  draws : Draws
  deriving DecidableEq

/-- The table, and for each id the password given last. -/
structure EslWorld where
  store : NodeStore
  given : Int → Option Given

def EslWorld.start : EslWorld := ⟨.empty, fun _ => none⟩

def EslWorld.step (w : EslWorld) : NodeOp → EslWorld
  | .createNode input draws dbError =>
    match createNode c H env w.store input draws dbError with
    | (.ok node, store) =>
      ⟨store, Function.update w.given node.id (some ⟨input.eslPassword, .create, draws⟩)⟩
    | (.error _, store) => ⟨store, w.given⟩
  | .updateNode nodeId input tenantId draws dbError =>
    match updateNode c H env w.store nodeId input tenantId draws dbError, input.eslPassword with
    | (.ok (some _), store), some password =>
      ⟨store, Function.update w.given nodeId (some ⟨password, .update tenantId, draws⟩)⟩
    | (_, store), _ => ⟨store, w.given⟩

end Service

/-- Where the password of a node is read. -/
def FsNode.cell (n : FsNode) : Cell := ⟨"fs_nodes", "esl_password", n.id, n.tenantId⟩

/-- Where the password given last was written. -/
def Given.cell (g : Given) (n : FsNode) : Cell :=
  match g.writer with
  | .create => ⟨"fs_nodes", "esl_password", 0, n.tenantId⟩
  | .update tenantId => ⟨"fs_nodes", "esl_password", n.id, tenantId⟩

variable {c : Aead} {H : Digest} {env : Env} {w : EslWorld}

/-- The column holds the password given last, encrypted for the place it was written to. -/
def Kept (c : Aead) (H : Digest) (env : Env) (given : Int → Option Given) (n : FsNode) : Prop :=
  ∃ g, given n.id = some g ∧
    ∃ result, encrypt c H env g.draws (g.cell n) (.text g.password) = .ok result ∧
      n.eslPassword = Base64.encode result.ciphertextBlob

structure EslWorld.Inv (c : Aead) (H : Digest) (env : Env) (w : EslWorld) : Prop where
  counter : 1 ≤ w.store.autoIncrement
  ids : ∀ n ∈ w.store.nodes, 1 ≤ n.id ∧ n.id < w.store.autoIncrement
  distinct : (w.store.nodes.map FsNode.id).Nodup
  kept : ∀ n ∈ w.store.nodes, Kept c H env w.given n

@[simp] theorem cell_updated (g : Given) (n : FsNode) (input : UpdateFsNodeInput)
    (password : Option String) : g.cell (n.updated input password) = g.cell n := by
  cases hwriter : g.writer with
  | create => simp [Given.cell, hwriter, FsNode.updated]
  | update tenantId => simp [Given.cell, hwriter, FsNode.updated]

theorem Kept.of_other {given : Int → Option Given} {n : FsNode} (h : Kept c H env given n)
    {id : Int} (hne : n.id ≠ id) (g : Option Given) :
    Kept c H env (Function.update given id g) n := by
  obtain ⟨g', hg', hresult⟩ := h
  exact ⟨g', (Function.update_of_ne hne _ _).trans hg', hresult⟩

theorem plain_cell (n : FsNode) : n.cell.Plain := by
  simp [Cell.Plain, FsNode.cell]

theorem plain_given (g : Given) (n : FsNode) : (g.cell n).Plain := by
  cases hwriter : g.writer with
  | create => simp [Cell.Plain, Given.cell, hwriter]
  | update tenantId => simp [Cell.Plain, Given.cell, hwriter]

theorem start_inv : EslWorld.start.Inv c H env where
  counter := le_refl _
  ids n hn := by cases hn
  distinct := List.nodup_nil
  kept n hn := by cases hn

namespace EslWorld

theorem Inv.create (h : w.Inv c H env) (input : CreateFsNodeInput) (draws : Draws)
    (dbError : Option String) : (w.step c H env (.createNode input draws dbError)).Inv c H env := by
  cases hencrypt : encrypt c H env draws ⟨"fs_nodes", "esl_password", 0, input.tenantId⟩
      (.text input.eslPassword) with
  | error e => simpa only [step, createNode, hencrypt] using h
  | ok result =>
    cases dbError with
    | some e => simpa only [step, createNode, hencrypt] using h
    | none =>
      have hcounter := h.counter
      simp only [step, createNode, hencrypt]
      have hnext : 1 ≤ w.store.autoIncrement + 1 := by omega
      refine ⟨hnext, fun n hn => ?_, ?_, fun n hn => ?_⟩
      · rcases List.mem_append.1 hn with hold | hnew
        · have hid := h.ids n hold
          dsimp only
          omega
        · rw [List.mem_singleton.1 hnew]
          dsimp only
          omega
      · rw [List.map_append, List.nodup_append]
        refine ⟨h.distinct, List.nodup_singleton _, fun id hid id' hid' => ?_⟩
        obtain ⟨n, hn, rfl⟩ := List.mem_map.1 hid
        have hlt := (h.ids n hn).2
        have hid'' : id' = w.store.autoIncrement := by simpa using hid'
        omega
      · rcases List.mem_append.1 hn with hold | hnew
        · exact (h.kept n hold).of_other (h.ids n hold).2.ne _
        · rw [List.mem_singleton.1 hnew]
          exact ⟨_, Function.update_self _ _ _, result, hencrypt, rfl⟩

theorem Inv.mapped (h : w.Inv c H env) {f : FsNode → FsNode} (hid : ∀ n, (f n).id = n.id)
    {given : Int → Option Given} (hkept : ∀ n ∈ w.store.nodes, Kept c H env given (f n))
    (published : List PoolChanged) :
    Inv c H env ⟨{ w.store with nodes := w.store.nodes.map f, published := published }, given⟩ where
  counter := h.counter
  ids n hn := by
    obtain ⟨m, hm, rfl⟩ := List.mem_map.1 hn
    have hids := h.ids m hm
    rw [← hid m] at hids
    exact hids
  distinct := by
    have hsame : (w.store.nodes.map f).map FsNode.id = w.store.nodes.map FsNode.id := by
      rw [List.map_map]
      exact List.map_congr_left fun n _ => hid n
    exact hsame.symm ▸ h.distinct
  kept n hn := by
    obtain ⟨m, hm, rfl⟩ := List.mem_map.1 hn
    exact hkept m hm

theorem Inv.update (h : w.Inv c H env) (nodeId : Int) (input : UpdateFsNodeInput) (tenantId : Int)
    (draws : Draws) (dbError : Option String) :
    (w.step c H env (.updateNode nodeId input tenantId draws dbError)).Inv c H env := by
  have hid : ∀ password n, (if n.id = nodeId then FsNode.updated n input password else n).id =
      n.id := by
    intro password n
    split_ifs <;> rfl
  cases hfind : w.store.find nodeId with
  | none => simpa only [step, updateNode, hfind] using h
  | some existing =>
    cases hpassword : input.eslPassword with
    | none =>
      have hstored : storedPassword c H env nodeId input tenantId draws = .ok none := by
        simp only [storedPassword, hpassword]
      cases dbError with
      | some e => simpa only [step, updateNode, hfind, hstored] using h
      | none =>
        simp only [step, updateNode, hfind, hstored, hpassword]
        refine h.mapped (hid none) (fun n hn => ?_) _
        obtain ⟨g, hg, result, hencrypt, hcolumn⟩ := h.kept n hn
        split_ifs with hn'
        · exact ⟨g, hg, result, by rw [cell_updated]; exact hencrypt, hcolumn⟩
        · exact ⟨g, hg, result, hencrypt, hcolumn⟩
    | some password =>
      cases hencrypt : encrypt c H env draws ⟨"fs_nodes", "esl_password", nodeId, tenantId⟩
          (.text password) with
      | error e =>
        have hstored : storedPassword c H env nodeId input tenantId draws = .error e := by
          simp only [storedPassword, hpassword, hencrypt]
          rfl
        simpa only [step, updateNode, hfind, hstored] using h
      | ok result =>
        have hstored : storedPassword c H env nodeId input tenantId draws =
            .ok (some (Base64.encode result.ciphertextBlob)) := by
          simp only [storedPassword, hpassword, hencrypt]
          rfl
        cases dbError with
        | some e => simpa only [step, updateNode, hfind, hstored] using h
        | none =>
          simp only [step, updateNode, hfind, hstored, hpassword]
          refine h.mapped (hid _) (fun n hn => ?_) _
          split_ifs with hn'
          · refine ⟨⟨password, .update tenantId, draws⟩, ?_, result, ?_, rfl⟩
            · show Function.update w.given nodeId _ n.id = _
              rw [hn', Function.update_self]
            · rw [cell_updated]
              show encrypt c H env draws ⟨"fs_nodes", "esl_password", n.id, tenantId⟩ _ = _
              rw [hn']
              exact hencrypt
          · exact (h.kept n hn).of_other hn' _

theorem Inv.step (h : w.Inv c H env) (op : NodeOp) : (w.step c H env op).Inv c H env := by
  cases op with
  | createNode input draws dbError => exact h.create input draws dbError
  | updateNode nodeId input tenantId draws dbError =>
    exact h.update nodeId input tenantId draws dbError

theorem Inv.find (h : w.Inv c H env) {n : FsNode} (hn : n ∈ w.store.nodes) :
    w.store.find n.id = some n := by
  cases hfind : w.store.find n.id with
  | none =>
    have hnone := List.find?_eq_none.1 hfind n hn
    simp at hnone
  | some m =>
    have hm : m ∈ w.store.nodes := List.mem_of_find?_eq_some hfind
    have hid : m.id = n.id := by simpa using List.find?_some hfind
    rw [List.inj_on_of_nodup_map h.distinct hm hn hid]

/-- A node's password reads back just when it was written for the place it is read from. -/
theorem Inv.read_back_iff (h : w.Inv c H env) (text : TextDecoder) {n : FsNode}
    (hn : n ∈ w.store.nodes) {g : Given} (hg : w.given n.id = some g)
    (hsep : Separates c H g.draws (.text g.password) env.kekCurrentVersion (g.cell n) n.cell) :
    getEslPassword c H env text w.store n.id n.tenantId = .ok g.password ↔
      1 ≤ env.kekCurrentVersion ∧ g.writer = .update n.tenantId := by
  obtain ⟨g', hg', result, hencrypt, hcolumn⟩ := h.kept n hn
  obtain rfl : g' = g := Option.some.inj (hg'.symm.trans hg)
  obtain ⟨kek, hkek, hzero, hfits, hblob⟩ := encrypt_ok hencrypt
  have hread : getEslPassword c H env text w.store n.id n.tenantId =
      (decrypt c H env n.cell
        (sealed c H env g'.draws (g'.cell n) (.text g'.password) kek hfits).bytes).map
          text.decode := by
    simp only [getEslPassword, h.find hn, hcolumn, Base64.decode_encode, hblob]
    rfl
  have hrow := (h.ids n hn).1
  rw [hread]
  by_cases hone : 1 ≤ env.kekCurrentVersion
  · by_cases hwriter : g'.writer = .update n.tenantId
    · have hcell : g'.cell n = n.cell := by simp only [Given.cell, hwriter, FsNode.cell]
      refine iff_of_true ?_ ⟨hone, hwriter⟩
      rw [decrypt_sealed hkek hone hfits]
      simp only [decipherFinal, sealed, hcell, c.decrypt_encrypt, Except.map, Plaintext.buffer,
        text.decode_utf8]
    · have hcell : n.cell ≠ g'.cell n := by
        intro heq
        cases hw : g'.writer with
        | create =>
          have hid : n.id = 0 := by
            simpa [Given.cell, hw, FsNode.cell] using congrArg Cell.rowId heq
          omega
        | update tenantId =>
          have htenant : n.tenantId = tenantId := by
            simpa [Given.cell, hw, FsNode.cell] using congrArg Cell.tenantId heq
          exact hwriter (by rw [hw, htenant])
      refine iff_of_false ?_ fun hboth => hwriter hboth.2
      rw [decrypt_elsewhere hkek hone hfits (plain_given g' n) (plain_cell n) hcell hsep]
      simp [Except.map]
  · refine iff_of_false ?_ fun hboth => hone hboth.1
    have hversion : (sealed c H env g'.draws (g'.cell n) (.text g'.password) kek
        hfits).kekVersion = 0 := by
      show env.kekCurrentVersion.toNat = 0
      omega
    rw [Frame.decrypt_version_zero c H env n.cell _ hversion]
    simp [Except.map]

end EslWorld

/-- After any run, the password given last for a node reads back for the tenant that created it
just when that tenant gave it in an update, with a version of the key above zero. -/
theorem password_read_back_iff (c : Aead) (H : Digest) (env : Env) (text : TextDecoder)
    (ops : List NodeOp) {n : FsNode}
    (hn : n ∈ (ops.foldl (EslWorld.step c H env) EslWorld.start).store.nodes) :
    ∃ g, (ops.foldl (EslWorld.step c H env) EslWorld.start).given n.id = some g ∧
      (Separates c H g.draws (.text g.password) env.kekCurrentVersion (g.cell n) n.cell →
        (getEslPassword c H env text (ops.foldl (EslWorld.step c H env) EslWorld.start).store n.id
            n.tenantId = .ok g.password ↔
          1 ≤ env.kekCurrentVersion ∧ g.writer = .update n.tenantId)) := by
  have halways : Always (EslWorld.step c H env) (EslWorld.Inv c H env) .start ops :=
    always_of_step (fun _ op hw => hw.step op) ops start_inv
  have hinv := halways.last
  obtain ⟨g, hg, -⟩ := hinv.kept n hn
  exact ⟨g, hg, fun hsep => hinv.read_back_iff text hn hg hsep⟩

def strictDecoder : TextDecoder where
  decode b := (String.fromUTF8? ⟨b.toArray⟩).getD ""
  decode_utf8 s := by
    have hbytes : (⟨(utf8 s).toArray⟩ : ByteArray) = s.toByteArray := rfl
    have hvalid : s.toByteArray.IsValidUTF8 := s.isValidUTF8
    simp only [hbytes, String.fromUTF8?, hvalid, dif_pos]
    rfl

def firstNode : CreateFsNodeInput where
  tenantId := 1
  name := "fs-1"
  host := "fs1.example.net"
  eslHost := "10.0.0.1"
  eslPort := none
  eslPassword := "secret"
  weight := none
  metadata := none

def afterCreation (rest : List NodeOp) : EslWorld :=
  (NodeOp.createNode firstNode fixedDraws none :: rest).foldl
    (EslWorld.step (tagged sha256) sha256 oneKek) EslWorld.start

def changed : List NodeOp := [.updateNode 1 { eslPassword := some "changed" } 1 fixedDraws none]

theorem changed_password_read_back : ∃ n ∈ (afterCreation changed).store.nodes,
    getEslPassword (tagged sha256) sha256 oneKek strictDecoder (afterCreation changed).store n.id
      n.tenantId = .ok "changed" := by
  have hsome : (afterCreation changed).store.nodes ≠ [] := by decide +kernel
  have hall : ∀ n ∈ (afterCreation changed).store.nodes, n.id = 1 ∧ n.tenantId = 1 := by
    decide +kernel
  have hgiven : (afterCreation changed).given 1 = some ⟨"changed", .update 1, fixedDraws⟩ := by
    decide +kernel
  obtain ⟨n, hn⟩ := List.exists_mem_of_ne_nil _ hsome
  obtain ⟨hid, htenant⟩ := hall n hn
  obtain ⟨g, hg, hiff⟩ := password_read_back_iff (tagged sha256) sha256 oneKek strictDecoder
    (.createNode firstNode fixedDraws none :: changed) hn
  have hg' : ⟨"changed", .update 1, fixedDraws⟩ = g := by
    apply Option.some.inj
    rw [← hgiven, ← hid]
    exact hg
  subst hg'
  have hcell : Given.cell ⟨"changed", .update 1, fixedDraws⟩ n = n.cell := by
    simp only [Given.cell, FsNode.cell, htenant]
  have hread := hiff (by rw [hcell]; exact ⟨fun _ => rfl, fun hne => absurd rfl hne⟩)
  exact ⟨n, hn, hread.2 ⟨by decide, by rw [htenant]⟩⟩

/-- The password of a node that was created and never changed is not read back. -/
theorem created_password_not_read_back :
    ¬ getEslPassword (tagged sha256) sha256 oneKek strictDecoder (afterCreation []).store 1 1 =
      .ok "secret" := by
  decide +kernel

end Vici2.Affinity
