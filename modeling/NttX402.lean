import NttX402.Proof.TransformLength
import NttX402.Proof.TransformLaws
import NttX402.Proof.ExactProduct
import NttX402.Proof.Binding
import NttX402.Proof.Formatting
import NttX402.Proof.Statuses
import NttX402.Proof.PaymentBodies
import NttX402.Proof.Discovery
import NttX402.Proof.Delivery
import NttX402.Proof.Rounding
import NttX402.Proof.DonorIndependence
import NttX402.Proof.DonorTable
import NttX402.Proof.AccountBytes
import NttX402.Proof.Receipts
import NttX402.Proof.PricingSchedule
