import Lindenmayer.Curve.Outline
import Lindenmayer.Stored.Basic

/-!
# Stored outlines and curve options
-/

set_option autoImplicit false

namespace Lindenmayer.Stored

/-- The kinds of curves by name. -/
def kindName : CurveKind → String
  | .poly => "Poly"
  | .nurbs => "Nurbs"
  | .bezier => "Bezier"

instance : Stored CurveKind where
  encode kind := encode (kindName kind)
  decode := decodeName [.poly, .nurbs, .bezier] kindName

/-- The handle styles by name. -/
def handleStyleName : HandleStyle → String
  | .automatic => "Automatic"
  | .vector => "Vector"
  | .aligned => "Aligned"
  | .free => "Free"

instance : Stored HandleStyle where
  encode style := encode (handleStyleName style)
  decode := decodeName [.automatic, .vector, .aligned, .free] handleStyleName

/-- The numbers of dimensions by name. -/
def dimensionsName : Dimensions → String
  | .two => "TwoD"
  | .three => "ThreeD"

instance : Stored Dimensions where
  encode dimensions := encode (dimensionsName dimensions)
  decode := decodeName [.two, .three] dimensionsName

instance : Stored CurveOptions where
  encode options :=
    record [("cyclic", encode options.cyclic), ("endpoint", encode options.endpoint),
      ("order", encode options.order), ("use_path", encode options.usePath),
      ("handle_type", encode options.handleStyle), ("dimensions", encode options.dimensions),
      ("transform", encode options.transform)]
  decode json := do
    let fields ← fields?
      ["cyclic", "endpoint", "order", "use_path", "handle_type", "dimensions", "transform"] json
    let cyclic ← fields.required "cyclic"
    let endpoint ← fields.required "endpoint"
    let order ← fields.required "order"
    let usePath ← fields.required "use_path"
    let handleStyle ← fields.required "handle_type"
    let dimensions ← fields.required "dimensions"
    let transform ← fields.optional "transform"
    pure { cyclic, endpoint, order, usePath, handleStyle, dimensions, transform }

instance : Stored Outline where
  encode outline :=
    record [("name", encode outline.name), ("kind", encode outline.kind),
      ("vertices", encode outline.vertices), ("config", encode outline.options)]
  decode json := do
    let fields ← fields? ["name", "kind", "vertices", "config"] json
    let name ← fields.required "name"
    let kind ← fields.required "kind"
    let vertices ← fields.required "vertices"
    let options ← fields.required "config"
    pure { name, kind, vertices, options }

end Lindenmayer.Stored
