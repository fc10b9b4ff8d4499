import Calculator.Http.App
import Calculator.Proofs.Cursor.Locality
import Calculator.Proofs.Display.Accuracy
import Calculator.Proofs.Display.Formatted
import Calculator.Proofs.Display.Retyping
import Calculator.Proofs.Display.Separators
import Calculator.Proofs.Display.TypedNumbers
import Calculator.Proofs.Double.Integers
import Calculator.Proofs.Expression.Enclosing
import Calculator.Proofs.Expression.IntegerTree
import Calculator.Proofs.Expression.Preview
import Calculator.Proofs.Expression.Spacing
import Calculator.Proofs.Http.BlankOrigins
import Calculator.Proofs.Http.Encoding
import Calculator.Proofs.Http.Isolation
import Calculator.Proofs.Http.Transport
import Calculator.Proofs.Log.Routing
import Calculator.Proofs.Log.Threshold
import Calculator.Proofs.Service.Records
import Calculator.Proofs.Settings.History
