import ArrowCheck.Typing.Meaning

namespace ArrowCheck

inductive StoreStep
  | fresh
  | concrete (name : String)
  | object (fields : Table String TypeId)
  | annotated (type : Option TypeExpr)
  | unify (a b : TypeId)
  | resolve (id : TypeId)
  | find (id : TypeId)
  | name (id : TypeId)
  | display (id : TypeId)
  | cell (id : TypeId)
  | isEmpty
  | clear

inductive StoreReply
  | id (id : TypeId)
  | done
  | clash (clash : Clash)
  | name (name : Option String)
  | text (text : String)
  | cell (cell : Cell)
  | flag (value : Bool)
  | outOfRange

namespace TypeStore

def step (s : TypeStore) : StoreStep → StoreReply × TypeStore
  | .fresh => s.fresh.map .id id
  | .concrete name => (s.concrete name).map .id id
  | .object fields => (s.object fields).map .id id
  | .annotated type => (translateOptional type s).map .id id
  | .unify a b =>
    if !s.contains a then (.outOfRange, s)
    else if !s.contains b then (.outOfRange, (s.resolve a).2)
    else
      match s.unify a b with
      | (.ok (), s) => (.done, s)
      | (.error clash, s) => (.clash clash, s)
  | .resolve a => if s.contains a then (s.resolve a).map .id id else (.outOfRange, s)
  | .find a => if s.contains a then (.id (s.find a), s) else (.outOfRange, s)
  | .name a => if s.contains a then (s.concreteName a).map .name id else (.outOfRange, s)
  | .display a => (((s.display a).map .text).getD .outOfRange, s)
  | .cell a => ((s.cells[a]?.map .cell).getD .outOfRange, s)
  | .isEmpty => (.flag s.cells.isEmpty, s)
  | .clear => (.done, s.clear)

end TypeStore

end ArrowCheck
